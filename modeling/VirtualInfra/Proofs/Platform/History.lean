import VirtualInfra.Proofs.Service

namespace VirtualInfra.Platform.OneNode

open Store

def content (m : Stored) : Machine × Option Instance := (m.machine, m.running)

def contents (w : OneNode) (name : String) : Except Problem (Option (Machine × Option Instance)) :=
  w.load.map fun st => (st.machines.get? name).map content

/-- What a machine on the node goes back to: its uid, the spec it was created with, and the run
strategy set last. -/
structure Origin where
  uid : String
  spec : Machine.Spec
  runStrategy : RunStrategy
deriving DecidableEq

namespace Origin

variable {w w' : OneNode} {t : Table Stored} {l : Table Origin} {o : Origin} {m : Stored}
  {name : String} {spec : Machine.Spec} {r : RunStrategy} {c : Catalogue}

section Form

def current (o : Origin) : Machine.Spec := { o.spec with runStrategy := o.runStrategy }

def under (o : Origin) (r : RunStrategy) : Origin := { o with runStrategy := r }

def status (o : Origin) : Machine.Status where
  created := true
  ready := o.runStrategy ≠ .halted
  printable := some (if o.runStrategy = .halted then "Stopped" else "Running")

def machine (o : Origin) : Machine := { uid := o.uid, spec := o.current, status := o.status }

def running (o : Origin) : Option Instance :=
  if o.runStrategy = .halted then none else some (start o.machine)

theorem eq_start_of_mem_running {i : Instance} (h : i ∈ o.running) : i = start o.machine := by
  rw [running] at h
  split at h
  · cases h
  · cases h
    rfl

/-- The form in which a machine is stored, whatever happened to it before. -/
def form (o : Origin) : Machine × Option Instance := (o.machine, o.running)

theorem content_applyRunStrategy (huid : m.machine.uid = o.uid)
    (hspec : { m.machine.spec with runStrategy := o.runStrategy } = o.current)
    (hcreated : m.machine.status.created = true)
    (hrunning : ∀ i ∈ m.running, i = start o.machine) (now : Timestamp) :
    content (applyRunStrategy now o.runStrategy m) = o.form := by
  rcases m with ⟨⟨uid, spec, made, ready, printable⟩, running, created, updated⟩
  cases huid
  cases hcreated
  rw [applyRunStrategy, hspec]
  by_cases hr : o.runStrategy = .halted
  · rw [if_pos hr]
    simp [content, form, machine, status, Origin.running, hr]
  · -- an instance that is there is kept, and is what a new one would be
    have hstart : running.getD (start o.machine) = start o.machine := by
      cases running with
      | none => rfl
      | some i => exact hrunning i rfl
    rw [if_neg hr]
    refine Prod.ext ?_ ((congrArg some hstart).trans (if_neg hr).symm)
    simp [content, form, machine, status, hr]

theorem content_stored (now : Timestamp) (uid : String) (spec : Machine.Spec) :
    content (stored now uid spec) = form ⟨uid, spec, spec.runStrategy⟩ := by
  refine content_applyRunStrategy (o := ⟨uid, spec, spec.runStrategy⟩) rfl rfl rfl ?_ now
  nofun

theorem content_applyRunStrategy_of_form (h : content m = o.form) (now : Timestamp)
    (r : RunStrategy) : content (applyRunStrategy now r m) = (o.under r).form := by
  obtain ⟨hmachine, hrunning⟩ := Prod.mk.inj h
  refine content_applyRunStrategy (o := o.under r) ?_ ?_ ?_ ?_ now
  · rw [hmachine]
    rfl
  · rw [hmachine]
    rfl
  · rw [hmachine]
    rfl
  · rw [hrunning]
    exact fun i hi => eq_start_of_mem_running (o := o) hi

structure Reports (uid : String) (n : Machine.Nic) (live : Instance.Nic) : Prop where
  name : live.name = n.name
  mac : live.mac = some (n.mac.getD (derivedMac uid n.name).text)

theorem reports_nics_start (m : Machine) :
    List.Forall₂ (Reports m.uid) m.spec.nics (start m).nics := by
  change List.Forall₂ _ _ (m.spec.nics.map _)
  induction m.spec.nics with
  | nil => exact .nil
  | cons n ns ih => exact .cons ⟨rfl, rfl⟩ ih

structure Shape (o : Origin) (m : Machine) (i : Option Instance) : Prop where
  uid : m.uid = o.uid
  spec : m.spec = { o.spec with runStrategy := o.runStrategy }
  running : i.isSome = true ↔ o.runStrategy ≠ .halted
  ready : m.status.ready = true ↔ o.runStrategy ≠ .halted
  nics : ∀ live ∈ i, List.Forall₂ (Reports o.uid) o.spec.nics live.nics

theorem shape_form (o : Origin) : Shape o o.machine o.running := by
  refine ⟨rfl, rfl, ?_, decide_eq_true_iff, ?_⟩
  · rw [running]
    split
    · next hr => exact ⟨nofun, fun h => absurd hr h⟩
    · next hr => exact ⟨fun _ => hr, fun _ => rfl⟩
  · intro live hlive
    rw [eq_start_of_mem_running hlive]
    exact reports_nics_start o.machine

end Form

def view (o : Origin) (c : Catalogue) : Except Fault Resource :=
  ((o.machine.project (platform.host c) o.running).run blank).1

theorem view_of_ne_halted (c : Catalogue) (ho : o.runStrategy ≠ .halted) (hr : r ≠ .halted) :
    (o.under r).view c = o.view c := by
  have hmachine : (o.under r).machine =
      { o.machine with spec := { o.machine.spec with runStrategy := r } } := by
    simp [machine, status, current, under, ho, hr]
  have hrunning : (o.under r).running = o.running := by
    rw [running, running, if_neg ho, under, if_neg hr]
    rfl
  rw [view, hmachine, hrunning, Machine.project_of_ne_halted ho hr]
  rfl

structure Tells (name : String) (m : Stored) (o : Origin) : Prop where
  content : content m = o.form
  named : o.spec.name = name

def Records (t : Table Stored) (l : Table Origin) : Prop := Table.Rel Tells t l

theorem Tells.applyRunStrategy (h : Tells name m o) (now : Timestamp) (r : RunStrategy) :
    Tells name (OneNode.applyRunStrategy now r m) (o.under r) where
  content := content_applyRunStrategy_of_form h.content now r
  named := h.named

theorem tells_stored (now : Timestamp) (uid : String) (spec : Machine.Spec) :
    Tells spec.name (stored now uid spec) ⟨uid, spec, spec.runStrategy⟩ where
  content := content_stored now uid spec
  named := rfl

section Calls

variable (h : w.Holds t) (hl : Records t l)

include h hl

/-- The origins tell everything that is stored, except the times. -/
theorem contents_of_records (name : String) : w.contents name = .ok ((l.get? name).map form) := by
  obtain ⟨st, hst, -, rfl⟩ := h.load
  have hname := hl name
  rw [contents, hst]
  refine congrArg Except.ok (?_ : (st.machines.get? name).map content = _)
  generalize st.machines.get? name = m at hname ⊢
  generalize l.get? name = o at hname ⊢
  cases hname with
  | some hmo => exact congrArg some hmo.content
  | none => rfl

theorem setRunStrategy_of_records (ho : l.get? name = some o) (r : RunStrategy) :
    ∃ w' t', platform.setRunStrategy name r w = (.ok (), w') ∧ w'.Holds t' ∧
      Records t' (l.insert name (o.under r)) := by
  obtain ⟨m, hm, hmo⟩ := Table.Rel.exists_left hl ho
  obtain ⟨d, hset, h'⟩ := setRunStrategy_of_some (r := r) h hm
  exact ⟨_, _, hset, h', Table.Rel.insert hl (hmo.applyRunStrategy w.now r)⟩

theorem query_of_records (ho : l.get? name = some o) (c : Catalogue) :
    (Service.query (platform.host c) name).run w = (o.view c, w) := by
  obtain ⟨m, hm, hmo⟩ := Table.Rel.exists_left hl ho
  obtain ⟨hmachine, hrunning⟩ := Prod.mk.inj hmo.content
  have hown : m.machine.spec.name = name := by
    rw [hmachine]
    exact hmo.named
  rw [h.run_query hm hown, hmachine, hrunning]
  exact Machine.maps_project o.machine o.running w blank

theorem operate_of_records (ho : l.get? name = some o) (c : Catalogue) (op : Service.Operation) :
    ∃ w' t', (Service.operate (platform.host c) name op).run w =
        ((o.under op.runStrategy).view c, w') ∧ w'.Holds t' ∧
      Records t' (l.insert name (o.under op.runStrategy)) := by
  obtain ⟨w', t', hset, h', hl'⟩ := setRunStrategy_of_records h hl ho op.runStrategy
  have ho' := l.get?_insert_self name (o.under op.runStrategy)
  exact ⟨w', t', (Service.run_operate op hset).trans (query_of_records h' hl' ho' c), h', hl'⟩

end Calls

def enter (spec : Machine.Spec) (l : Table Origin) : Except Fault Machine.Created → Table Origin
  | .ok created => l.insert created.name ⟨created.uid, spec, spec.runStrategy⟩
  | .error _ => l

def switch (name : String) (r : RunStrategy) (l : Table Origin) : Except Fault Unit → Table Origin
  | .ok () =>
    match l.get? name with
    | some o => l.insert name (o.under r)
    | none => l
  | .error _ => l

def strike (name : String) (l : Table Origin) : Except Fault Unit → Table Origin
  | .ok () => l.erase name
  | .error _ => l

/-- What an empty node can come to, and where the machines on it come from, when calls are made one
after the other. -/
inductive Runs : OneNode → Table Origin → Prop
  | start {w : OneNode} (h : w.IsNew) : Runs w ∅
  | later {w w' : OneNode} {l : Table Origin} (h : Runs w l) (hl : w.Later w') : Runs w' l
  | create {w : OneNode} {l : Table Origin} (h : Runs w l) (spec : Machine.Spec) :
      Runs (platform.create spec w).2 (enter spec l (platform.create spec w).1)
  | setRunStrategy {w : OneNode} {l : Table Origin} (h : Runs w l) (name : String)
      (r : RunStrategy) :
      Runs (platform.setRunStrategy name r w).2
        (switch name r l (platform.setRunStrategy name r w).1)
  | delete {w : OneNode} {l : Table Origin} (h : Runs w l) (name : String) :
      Runs (platform.delete name w).2 (strike name l (platform.delete name w).1)

section Steps

theorem records_create (h : w.Holds t) (hl : Records t l) (spec : Machine.Spec) :
    ∃ t', (platform.create spec w).2.Holds t' ∧
      Records t' (enter spec l (platform.create spec w).1) := by
  cases hc : clash? (specs t) spec with
  | some cause =>
      obtain ⟨d, hcreate, h'⟩ := create_of_clash h hc
      rw [hcreate]
      exact ⟨t, h', hl⟩
  | none =>
      obtain ⟨d, hcreate, h'⟩ := create_of_free h hc
      rw [hcreate]
      exact ⟨_, h', Table.Rel.insert hl (tells_stored _ _ _)⟩

theorem records_setRunStrategy (h : w.Holds t) (hl : Records t l) (name : String)
    (r : RunStrategy) :
    ∃ t', (platform.setRunStrategy name r w).2.Holds t' ∧
      Records t' (switch name r l (platform.setRunStrategy name r w).1) := by
  cases ho : l.get? name with
  | none =>
      obtain ⟨d, hset, h'⟩ := setRunStrategy_of_none (r := r) h
        ((Table.Rel.get?_eq_none_iff hl name).2 ho)
      rw [hset]
      exact ⟨t, h', hl⟩
  | some o =>
      obtain ⟨w', t', hset, h', hl'⟩ := setRunStrategy_of_records h hl ho r
      rw [hset, switch, ho]
      exact ⟨t', h', hl'⟩

theorem records_delete (h : w.Holds t) (hl : Records t l) (name : String) :
    ∃ t', (platform.delete name w).2.Holds t' ∧
      Records t' (strike name l (platform.delete name w).1) := by
  cases hm : t.get? name with
  | none =>
      obtain ⟨d, hdelete, h'⟩ := delete_of_none h hm
      rw [hdelete]
      exact ⟨t, h', hl⟩
  | some m =>
      obtain ⟨d, hdelete, h'⟩ := delete_of_some h hm
      rw [hdelete]
      exact ⟨_, h', Table.Rel.erase hl name⟩

theorem records_of_runs (h : Runs w l) : ∃ t, w.Holds t ∧ Records t l := by
  induction h with
  | start h => exact ⟨∅, h.holds, Table.Rel.empty⟩
  | later _ hlater ih =>
      obtain ⟨t, h, hl⟩ := ih
      exact ⟨t, h.later hlater, hl⟩
  | create _ spec ih =>
      obtain ⟨t, h, hl⟩ := ih
      exact records_create h hl spec
  | setRunStrategy _ name r ih =>
      obtain ⟨t, h, hl⟩ := ih
      exact records_setRunStrategy h hl name r
  | delete _ name ih =>
      obtain ⟨t, h, hl⟩ := ih
      exact records_delete h hl name

theorem get?_switch_of_runs (h : Runs w l) (ho : l.get? name = some o) (r : RunStrategy) :
    (switch name r l (platform.setRunStrategy name r w).1).get? name = some (o.under r) := by
  obtain ⟨t, ht, hl⟩ := records_of_runs h
  obtain ⟨w', t', hset, -⟩ := setRunStrategy_of_records ht hl ho r
  rw [hset, switch, ho]
  exact l.get?_insert_self name (o.under r)

end Steps

/-- Stopping the machine and starting it again brings back what a query showed of it, whatever time
passes meanwhile. -/
def Restarts (c : Catalogue) (w : OneNode) (name : String) : Prop :=
  ∀ w₁ w₂, ((Service.operate (platform.host c) name .stop).run w).2.Later w₁ →
    ((Service.operate (platform.host c) name .start).run w₁).2.Later w₂ →
    ((Service.operate (platform.host c) name .start).run w₁).1 =
        ((Service.query (platform.host c) name).run w).1 ∧
      ((Service.query (platform.host c) name).run w₂).1 =
        ((Service.query (platform.host c) name).run w).1

structure Canonical (w : OneNode) (name : String) (o : Origin) : Prop where
  named : o.spec.name = name
  shape : ∃ m i, w.contents name = .ok (some (m, i)) ∧ Shape o m i
  remade : ∀ v : OneNode, v.IsNew → v.fresh v.drawn = o.uid →
    (platform.create o.current v).2.contents name = w.contents name
  obeys : ∀ r, (platform.setRunStrategy name r w).1 = .ok ()
  restarts : o.runStrategy ≠ .halted → ∀ c, Restarts c w name

structure HistoryFree (w : OneNode) (l : Table Origin) : Prop where
  told : ∀ name, w.contents name = .ok ((l.get? name).map form)
  canonical : ∀ name o, l.get? name = some o → Canonical w name o
  again : ∀ name r w', (platform.setRunStrategy name r w).2.Later w' →
    (platform.setRunStrategy name r w').1 = (platform.setRunStrategy name r w).1 ∧
      ∀ other, (platform.setRunStrategy name r w').2.contents other = w'.contents other

section Records

theorem contents_create_of_isNew (h : w.IsNew) (spec : Machine.Spec) :
    (platform.create spec w).2.contents spec.name =
      .ok (some (form ⟨w.fresh w.drawn, spec, spec.runStrategy⟩)) := by
  obtain ⟨d, hcreate, h'⟩ := create_of_free h.holds (clash?_specs_empty spec)
  have hl := Table.Rel.insert Table.Rel.empty (tells_stored w.now (w.fresh w.drawn) spec)
  rw [hcreate, contents_of_records h' hl, Table.get?_insert, if_pos rfl]
  rfl

variable (h : w.Holds t) (hl : Records t l)

include h hl

theorem restarts_of_records (ho : l.get? name = some o) (hr : o.runStrategy ≠ .halted)
    (c : Catalogue) : Restarts c w name := by
  intro w₁ w₂ h₁ h₂
  obtain ⟨w₁', t₁, hstop, ht₁, hl₁⟩ := operate_of_records h hl ho c .stop
  rw [hstop] at h₁
  have ho₁ := l.get?_insert_self name (o.under .halted)
  obtain ⟨w₂', t₂, hstart, ht₂, hl₂⟩ := operate_of_records (ht₁.later h₁) hl₁ ho₁ c .start
  rw [hstart] at h₂ ⊢
  have ho₂ := (l.insert name (o.under .halted)).get?_insert_self name (o.under .always)
  have hview : (o.under .always).view c = o.view c := view_of_ne_halted c hr nofun
  rw [query_of_records h hl ho, query_of_records (ht₂.later h₂) hl₂ ho₂]
  exact ⟨hview, hview⟩

theorem again_of_records (name : String) (r : RunStrategy)
    (hlater : (platform.setRunStrategy name r w).2.Later w') :
    (platform.setRunStrategy name r w').1 = (platform.setRunStrategy name r w).1 ∧
      ∀ other, (platform.setRunStrategy name r w').2.contents other = w'.contents other := by
  cases ho : l.get? name with
  | none =>
      have hm := (Table.Rel.get?_eq_none_iff hl name).2 ho
      obtain ⟨d, hset, h₁⟩ := setRunStrategy_of_none (r := r) h hm
      rw [hset] at hlater ⊢
      obtain ⟨d', hset', h₂⟩ := setRunStrategy_of_none (r := r) (h₁.later hlater) hm
      rw [hset']
      refine ⟨rfl, fun other => ?_⟩
      rw [contents_of_records h₂ hl, contents_of_records (h₁.later hlater) hl]
  | some o =>
      obtain ⟨w₁, t₁, hset, h₁, hl₁⟩ := setRunStrategy_of_records h hl ho r
      rw [hset] at hlater ⊢
      have ho₁ := l.get?_insert_self name (o.under r)
      obtain ⟨w₂, t₂, hset', h₂, hl₂⟩ := setRunStrategy_of_records (h₁.later hlater) hl₁ ho₁ r
      rw [hset']
      refine ⟨rfl, fun other => ?_⟩
      rw [contents_of_records h₂ hl₂, contents_of_records (h₁.later hlater) hl₁]
      exact congrArg (Except.ok ∘ Option.map form) (l.get?_insert_insert name other (o.under r))

theorem canonical_of_records (ho : l.get? name = some o) : Canonical w name o := by
  have hname : o.spec.name = name := by
    obtain ⟨m, -, hmo⟩ := Table.Rel.exists_left hl ho
    exact hmo.named
  have htold : w.contents name = .ok (some o.form) := by
    rw [contents_of_records h hl, ho]
    rfl
  refine ⟨hname, ⟨_, _, htold, shape_form o⟩, fun v hv huid => ?_, fun r => ?_,
    restarts_of_records h hl ho⟩
  · have hmade := contents_create_of_isNew hv o.current
    rw [huid] at hmade
    rw [htold, ← hname]
    exact hmade
  · obtain ⟨w', t', hset, -⟩ := setRunStrategy_of_records h hl ho r
    rw [hset]

end Records

/-- Whatever calls were made, what is stored is what the origins of the machines make of them. -/
theorem historyFree_of_runs (h : Runs w l) : HistoryFree w l := by
  obtain ⟨t, ht, hl⟩ := records_of_runs h
  exact ⟨contents_of_records ht hl, fun _ _ ho => canonical_of_records ht hl ho,
    fun name r _ hlater => again_of_records ht hl name r hlater⟩

def sample : Machine.Spec where
  name := "vm-1"
  space := "default"
  labels := ∅
  runStrategy := .always
  instancetype := ⟨"VirtualMachineClusterInstancetype", "u1.small"⟩
  preference := none
  volumes := []
  links := [{ name := "default", pod := true },
    { name := "tenant", attachment := some "default/tenant" }]
  nics := [{ name := "default", masquerade := true },
    { name := "tenant", bridge := true, mac := some "02-00-00-00-00-AB" }]
  drives := []

def made : Except Fault Machine.Created × OneNode := platform.create sample blank

def halted : Except Fault Unit × OneNode := platform.setRunStrategy "vm-1" .halted made.2

def revived : Except Fault Unit × OneNode := platform.setRunStrategy "vm-1" .manual halted.2

def ledger : Table Origin :=
  switch "vm-1" .manual (switch "vm-1" .halted (enter sample ∅ made.1) halted.1) revived.1

theorem historyFree_revived :
    Runs revived.2 ledger ∧ ledger.get? "vm-1" = some ⟨"uid-0", sample, .manual⟩ ∧
      HistoryFree revived.2 ledger := by
  have hmade : (enter sample ∅ made.1).get? "vm-1" = some ⟨"uid-0", sample, .always⟩ := by
    decide +kernel
  have hstart : Runs made.2 (enter sample ∅ made.1) := .create (.start isNew_blank) sample
  have hstop : Runs halted.2 (switch "vm-1" .halted (enter sample ∅ made.1) halted.1) :=
    .setRunStrategy hstart "vm-1" .halted
  have hruns : Runs revived.2 ledger := .setRunStrategy hstop "vm-1" .manual
  have hthere := get?_switch_of_runs hstop (get?_switch_of_runs hstart hmade .halted) .manual
  exact ⟨hruns, hthere, historyFree_of_runs hruns⟩

end Origin

end VirtualInfra.Platform.OneNode
