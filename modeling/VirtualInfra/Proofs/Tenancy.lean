import VirtualInfra.Proofs.Allocation
import VirtualInfra.Proofs.Platform.View
import VirtualInfra.Proofs.Service

namespace VirtualInfra

open Platform OneNode Store Request

structure Tenancy where
  request : Request
  resource : Resource
  runStrategy : RunStrategy

namespace Tenancy

variable {c : Catalogue} {d : Defaults} {name : String} {m : Stored} {e : Tenancy}
  {t t' : Table Stored} {l : Table Tenancy}

def enter (d : Defaults) (r : Request) (l : Table Tenancy) : Except Fault Resource → Table Tenancy
  | .ok resource => l.insert resource.name ⟨r, resource, d.runStrategy⟩
  | .error _ => l

def switch (name : String) (r : RunStrategy) (l : Table Tenancy) : Table Tenancy :=
  match l.get? name with
  | some e => l.insert name { e with runStrategy := r }
  | none => l

def leave (name : String) (l : Table Tenancy) : Except Fault Unit → Table Tenancy
  | .ok () => l.erase name
  | .error _ => l

/-- What a node can come to, and the tenancies on it, when allocations, starts, stops and
terminations are carried out one after the other. A caller may cancel, but a start, stop or
termination that is cancelled is taken not to have reached the node: the runs in which one is given
up under way and takes effect on the node all the same are left out. -/
inductive Runs (c : Catalogue) (d : Defaults) : OneNode → Table Tenancy → Prop
  | start {w : OneNode} (h : w.IsNew) : Runs c d w ∅
  | later {w w' : OneNode} {l : Table Tenancy} (h : Runs c d w l) (hl : w.Later w') : Runs c d w' l
  | allocate {World : Type} {host : Host World} {node : World → OneNode} {v : World}
      {l : Table Tenancy} (h : Runs c d (node v) l) (hd : host.Drives node c) (r : Request) :
      Runs c d (node ((Service.allocate host d r).run v).2)
        (enter d r l ((Service.allocate host d r).run v).1)
  | operate {World : Type} {host : Host World} {node : World → OneNode} {v : World}
      {l : Table Tenancy} (h : Runs c d (node v) l) (hd : host.Drives node c) (name : String)
      (op : Service.Operation) :
      Runs c d (node ((Service.operate host name op).run v).2)
        (if host.admits (.setRunStrategy name op.runStrategy) v then switch name op.runStrategy l
        else l)
  | terminate {World : Type} {host : Host World} {node : World → OneNode} {v : World}
      {l : Table Tenancy} (h : Runs c d (node v) l) (hd : host.Drives node c) (name : String) :
      Runs c d (node ((Service.terminate host name).run v).2)
        (leave name l ((Service.terminate host name).run v).1)

/-- The machine that is kept under the name is the one that the tenant was given. -/
structure Backs (c : Catalogue) (d : Defaults) (name : String) (m : Stored) (e : Tenancy) : Prop where
  settled : Settled m
  compiled : ∃ resolved attachments spec, Compiles c d e.request resolved attachments spec ∧
    spec.name = name ∧ m.machine.spec = { spec with runStrategy := e.runStrategy }
  id : e.resource.id = m.machine.uid
  name : e.resource.name = name

def Accounts (c : Catalogue) (d : Defaults) (t : Table Stored) (l : Table Tenancy) : Prop :=
  ∀ name, Option.Rel (Backs c d name) (t.get? name) (l.get? name)

theorem Backs.applyRunStrategy (h : Backs c d name m e) (now : Timestamp) (r : RunStrategy) :
    Backs c d name (OneNode.applyRunStrategy now r m) { e with runStrategy := r } := by
  obtain ⟨resolved, attachments, spec, hspec, hname, hm⟩ := h.compiled
  refine ⟨h.settled.applyRunStrategy, ⟨resolved, attachments, spec, hspec, hname, ?_⟩, ?_, h.name⟩
  · rw [spec_applyRunStrategy, hm]
  · rw [uid_applyRunStrategy]
    exact h.id

theorem backs_stored {r : Request} {resolved : List (Subnet × Assignment)}
    {attachments : List (Machine.Link × Machine.Nic)} {spec : Machine.Spec} {resource : Resource}
    (h : Compiles c d r resolved attachments spec) (hname : resource.name = spec.name)
    (now : Timestamp) :
    Backs c d resource.name (stored now resource.id spec) ⟨r, resource, d.runStrategy⟩ := by
  refine ⟨settled_stored _ _, ⟨resolved, attachments, spec, h, hname.symm, ?_⟩, ?_, rfl⟩
  · rw [spec_stored, ← h.runStrategy]
  · rw [uid_stored]

namespace Accounts

theorem empty : Accounts c d ∅ ∅ := Table.Rel.empty

theorem insert (h : Accounts c d t l) (hb : Backs c d name m e) :
    Accounts c d (t.insert name m) (l.insert name e) := Table.Rel.insert h hb

theorem erase (h : Accounts c d t l) (name : String) :
    Accounts c d (t.erase name) (l.erase name) := Table.Rel.erase h name

theorem exists_machine (h : Accounts c d t l) (he : l.get? name = some e) :
    ∃ m, t.get? name = some m ∧ Backs c d name m e := Table.Rel.exists_left h he

theorem exists_tenancy (h : Accounts c d t l) (hm : t.get? name = some m) :
    ∃ e, l.get? name = some e ∧ Backs c d name m e := Table.Rel.exists_right h hm

theorem contains_eq (h : Accounts c d t l) (name : String) :
    t.contains name = l.contains name := Table.Rel.contains_eq h name

theorem get?_eq_none_iff (h : Accounts c d t l) (name : String) :
    t.get? name = none ↔ l.get? name = none := Table.Rel.get?_eq_none_iff h name

end Accounts

section Steps

variable {World : Type} {host : Host World} {node : World → OneNode} {v v' : World} {r : Request}
  {spec : Machine.Spec} {created : Machine.Created} {now : Timestamp}

theorem holds_of_compiled {x : Except Fault Machine.Spec} (hd : host.Drives node c)
    (h : (node v).Holds t) (compiled : (r.compile host d).run v = (x, v')) : (node v').Holds t := by
  have hv := Host.Drives.holds_of_keeps (keeps_compile (fun _ hc => hd.spares hc) d r) h
  rw [compiled] at hv
  exact hv

theorem compiles_of_drives (hd : host.Drives node c)
    (compiled : (r.compile host d).run v = (.ok spec, v')) :
    ∃ resolved attachments, Compiles c d r resolved attachments spec := by
  have hrun := follows_compile hd.findsIn platform d r v (node v) spec (by rw [compiled])
  exact compiles_of_run hrun

theorem holds_of_created (hd : host.Drives node c) (h : (node v).Holds t)
    (hrun : (host.call (.create spec)).run v = (.ok created, v')) :
    t.get? spec.name = none ∧ created.name = spec.name ∧ created.labels = spec.labels ∧
      ∃ now, (node v').Holds (t.insert spec.name (stored now created.uid spec)) := by
  obtain ⟨w, hl, hw⟩ := hd.run_call hrun
  obtain ⟨hc, hname, hlabels, h'⟩ := (h.later hl).of_create_ok hw
  exact ⟨get?_eq_none_of_clash? hc, hname, hlabels, w.now, h'⟩

/-- A machine that was just put there is taken away again, and nothing is left of it. -/
theorem holds_of_deleted {x : Except Fault Unit} (hd : host.Drives node c)
    (h : (node v).Holds (t.insert spec.name m)) (hfree : t.get? spec.name = none)
    (hname : created.name = spec.name)
    (hrun : (host.call (.delete created.name)).run v = (x, v')) : (node v').Holds t := by
  have hthere := t.get?_insert_self spec.name m
  obtain ⟨w, hl, hw⟩ := hd.run_call hrun
  rw [hname] at hw
  rcases (h.later hl).of_delete hw with ⟨hnone, -⟩ | ⟨_, -, -, h'⟩
  · rw [hnone] at hthere
    cases hthere
  · rw [Table.erase_insert hfree] at h'
    exact h'

theorem accounts_allocate (hd : host.Drives node c) (h : (node v).Holds t)
    (ha : Accounts c d t l) (r : Request) :
    ∃ t', (node ((Service.allocate host d r).run v).2).Holds t' ∧
      Accounts c d t' (enter d r l ((Service.allocate host d r).run v).1) := by
  have hends := Service.ends_allocate host d r v
  generalize ((Service.allocate host d r).run v).1 = result at hends ⊢
  generalize ((Service.allocate host d r).run v).2 = v' at hends ⊢
  cases hends with
  | uncompiled compiled => exact ⟨t, holds_of_compiled hd h compiled, ha⟩
  | cancelled compiled => exact ⟨t, holds_of_compiled hd h compiled, ha⟩
  | refused compiled seen created =>
      obtain ⟨w, hl, hw⟩ := hd.run_call created
      have hv := (holds_of_compiled hd h compiled).later hl
      exact ⟨t, hv.of_create_error hw, ha⟩
  | made compiled seen created late derived =>
      obtain ⟨resolved, attachments, hspec⟩ := compiles_of_drives hd compiled
      obtain ⟨-, hname, -, now, h'⟩ :=
        holds_of_created hd (holds_of_compiled hd h compiled) created
      obtain ⟨hid, hnamed⟩ := Machine.Created.of_project_eq_ok derived
      have hb := backs_stored hspec (hnamed.trans hname) now
      refine ⟨_, h', ?_⟩
      rw [← hid, ← hname, ← hnamed]
      exact ha.insert hb
  | withdrawn compiled seen created late deleted =>
      obtain ⟨hfree, hname, -, now, h'⟩ :=
        holds_of_created hd (holds_of_compiled hd h compiled) created
      exact ⟨t, holds_of_deleted hd h' hfree hname deleted, ha⟩
  | underivable compiled seen created late derived deleted =>
      obtain ⟨resolved, attachments, hspec⟩ := compiles_of_drives hd compiled
      obtain ⟨-, -, hlabels, -⟩ := holds_of_created hd (holds_of_compiled hd h compiled) created
      obtain ⟨resource, hr⟩ := Machine.Created.exists_project_eq_ok hspec hlabels
      rw [hr] at derived
      cases derived

theorem accounts_setRunStrategy {w w' : OneNode} {x : Except Fault Unit} (h : w.Holds t)
    (ha : Accounts c d t l) {s : RunStrategy} (hw : platform.setRunStrategy name s w = (x, w')) :
    ∃ t', w'.Holds t' ∧ Accounts c d t' (switch name s l) := by
  rw [switch]
  rcases h.of_setRunStrategy hw with ⟨hnone, h'⟩ | ⟨m, hm, h'⟩
  · rw [(ha.get?_eq_none_iff name).1 hnone]
    exact ⟨t, h', ha⟩
  · obtain ⟨e, he, hb⟩ := ha.exists_tenancy hm
    rw [he]
    exact ⟨_, h', ha.insert (hb.applyRunStrategy w.now s)⟩

/-- Setting the run strategy in a race switches the tenancy unless the caller cancels before. -/
theorem accounts_race_setRunStrategy {x : Except Fault Unit} {s : RunStrategy}
    (hd : host.Drives node c) (h : (node v).Holds t) (ha : Accounts c d t l) (stage : String)
    (hx : (host.race stage (.setRunStrategy name s)).run v = (x, v')) :
    ∃ t', (node v').Holds t' ∧
      Accounts c d t' (if host.admits (.setRunStrategy name s) v then switch name s l else l) := by
  have hrace := hd.run_race stage hx
  split
  · next hadmits =>
      rw [if_pos hadmits] at hrace
      obtain ⟨w, hl, hw⟩ := hrace
      exact accounts_setRunStrategy (h.later hl) ha hw
  · next hadmits =>
      rw [if_neg hadmits] at hrace
      exact ⟨t, h.later hrace.2, ha⟩

theorem accounts_operate (hd : host.Drives node c) (h : (node v).Holds t) (ha : Accounts c d t l)
    (name : String) (op : Service.Operation) :
    ∃ t', (node ((Service.operate host name op).run v).2).Holds t' ∧
      Accounts c d t' (if host.admits (.setRunStrategy name op.runStrategy) v then
        switch name op.runStrategy l else l) := by
  rcases hset : (host.race "set run strategy" (.setRunStrategy name op.runStrategy)).run v
    with ⟨x, v'⟩
  obtain ⟨t', h', ha'⟩ := accounts_race_setRunStrategy hd h ha "set run strategy" hset
  have hstage : ((host.race "set run strategy" (.setRunStrategy name op.runStrategy)).within
      s!"{op.name} VM {name}").run v = (Fault.mark s!"{op.name} VM {name}" x, v') := by
    rw [Act.run_within, hset]
  rw [Service.operate]
  cases x with
  | error f =>
      rw [Act.run_bind_of_error hstage]
      exact ⟨t', h', ha'⟩
  | ok =>
      rw [Act.run_bind_of_ok hstage]
      have hquery := Service.keeps_query (fun _ hc => hd.spares hc) name
      exact ⟨t', Host.Drives.holds_of_keeps hquery h', ha'⟩

theorem accounts_terminate (hd : host.Drives node c) (h : (node v).Holds t)
    (ha : Accounts c d t l) (name : String) :
    ∃ t', (node ((Service.terminate host name).run v).2).Holds t' ∧
      Accounts c d t' (leave name l ((Service.terminate host name).run v).1) := by
  rcases hdelete : (host.race "delete VM" (.delete name)).run v with ⟨x, v'⟩
  have hrace := hd.run_race "delete VM" hdelete
  rw [Service.terminate, Act.run_within, hdelete]
  split at hrace
  · obtain ⟨w, hl, hw⟩ := hrace
    rcases (h.later hl).of_delete hw with ⟨-, ⟨f, rfl⟩, h'⟩ | ⟨_, -, rfl, h'⟩
    · exact ⟨t, h', ha⟩
    · exact ⟨_, h', ha.erase name⟩
  · obtain ⟨⟨f, rfl⟩, hl⟩ := hrace
    exact ⟨t, h.later hl, ha⟩

theorem accounts_of_runs {w : OneNode} (h : Runs c d w l) : ∃ t, w.Holds t ∧ Accounts c d t l := by
  induction h with
  | start h => exact ⟨∅, h.holds, .empty⟩
  | later _ hl ih =>
      obtain ⟨t, h, ha⟩ := ih
      exact ⟨t, h.later hl, ha⟩
  | allocate _ hd r ih =>
      obtain ⟨t, h, ha⟩ := ih
      exact accounts_allocate hd h ha r
  | operate _ hd name op ih =>
      obtain ⟨t, h, ha⟩ := ih
      exact accounts_operate hd h ha name op
  | terminate _ hd name ih =>
      obtain ⟨t, h, ha⟩ := ih
      exact accounts_terminate hd h ha name

end Steps

structure Serves (c : Catalogue) (w : OneNode) (e : Tenancy) : Prop where
  query : ∃ view, (Service.query (platform.host c) e.resource.name).run w = (.ok view, w) ∧
    Mirrors c e.request e.resource.id e.resource.name e.runStrategy view
  operate : ∀ op, ∃ view w',
    (Service.operate (platform.host c) e.resource.name op).run w = (.ok view, w') ∧
    Mirrors c e.request e.resource.id e.resource.name op.runStrategy view
  terminate : ∃ w', (Service.terminate (platform.host c) e.resource.name).run w = (.ok (), w')

/-- The node has the machines of the tenancies and no others. -/
structure Honours (c : Catalogue) (w : OneNode) (l : Table Tenancy) : Prop where
  present : ∃ st, w.load = .ok st ∧ ∀ name, st.machines.contains name = l.contains name
  served : ∀ name e, l.get? name = some e → e.resource.name = name ∧ Serves c w e
  unknown : ∀ name, l.get? name = none →
    (∃ f, (Service.query (platform.host c) name).run w = (.error f, w) ∧ f.kind = .notFound) ∧
    (∀ op, ∃ f w', (Service.operate (platform.host c) name op).run w = (.error f, w') ∧
      f.kind = .notFound) ∧
    ∃ f w', (Service.terminate (platform.host c) name).run w = (.error f, w') ∧ f.kind = .notFound

section Calls

variable {w : OneNode} (h : w.Holds t)

include h

theorem run_query_of_backs (hc : c.validate = .ok ()) (hm : t.get? name = some m)
    (hb : Backs c d name m e) :
    ∃ view, (Service.query (platform.host c) name).run w = (.ok view, w) ∧
      Mirrors c e.request e.resource.id name e.runStrategy view := by
  obtain ⟨resolved, attachments, spec, hspec, hname, hms⟩ := hb.compiled
  obtain ⟨view, hview, hmirrors⟩ := hb.settled.run_project (p := platform) (v := w) hc hspec hms
  have hown : m.machine.spec.name = name := by rw [hms, ← hname]
  refine ⟨view, (h.run_query hm hown).trans hview, ?_⟩
  rw [hb.id, ← hname]
  exact hmirrors

theorem serves_of_backs (hc : c.validate = .ok ()) (hm : t.get? name = some m)
    (hb : Backs c d name m e) : Serves c w e := by
  have hname := hb.name
  subst hname
  constructor
  · exact run_query_of_backs h hc hm hb
  · intro op
    obtain ⟨disk, hset, h'⟩ := setRunStrategy_of_some (r := op.runStrategy) h hm
    have hthere := t.get?_insert_self e.resource.name
      (OneNode.applyRunStrategy w.now op.runStrategy m)
    obtain ⟨view, hview, hmirrors⟩ :=
      run_query_of_backs h' hc hthere (hb.applyRunStrategy w.now op.runStrategy)
    exact ⟨view, _, (Service.run_operate op hset).trans hview, hmirrors⟩
  · obtain ⟨disk, hdelete, -⟩ := delete_of_some h hm
    exact ⟨_, Service.run_terminate hdelete⟩

theorem honours_of_accounts (hc : c.validate = .ok ()) (ha : Accounts c d t l) :
    Honours c w l := by
  constructor
  · obtain ⟨st, hst, -, rfl⟩ := h.load
    exact ⟨st, hst, ha.contains_eq⟩
  · intro name e he
    obtain ⟨m, hm, hb⟩ := ha.exists_machine he
    exact ⟨hb.name, serves_of_backs h hc hm hb⟩
  · intro name hnone
    have hm := (ha.get?_eq_none_iff name).2 hnone
    refine ⟨⟨_, Service.run_query_of_error (machine_of_none h hm), rfl⟩, fun op => ?_, ?_⟩
    · obtain ⟨disk, hset, -⟩ := setRunStrategy_of_none (r := op.runStrategy) h hm
      exact ⟨_, _, Service.run_operate_of_error op hset, rfl⟩
    · obtain ⟨disk, hdelete, -⟩ := delete_of_none h hm
      exact ⟨_, _, Service.run_terminate hdelete, rfl⟩

end Calls

/-- Whatever was done before, every machine on the node answers its tenant as the one that was
allocated, and no machine is there without a tenant. -/
theorem honours_of_runs {w : OneNode} (hc : c.validate = .ok ()) (h : Runs c d w l) :
    Honours c w l := by
  obtain ⟨t, ht, ha⟩ := accounts_of_runs h
  exact honours_of_accounts ht hc ha

def sample : Catalogue where
  flavours := .ofList [("small", ⟨"small", none, none, .ofList [
    ("kubevim.io/source", "kubevirt"), ("kubevim.io/instancetype-name", "u1.small")]⟩)]
  images := .ofList [("disk", ⟨"disk", "linux", 1, none⟩)]
  networks := .ofList [("net", ⟨"net", "net", .overlay, ∅⟩)]
  subnets := .ofList [("sub", ⟨"sub", some "net", none, .ofList [
    ("kubevim.io/subnet-name", "tenant"), ("kubevim.io/attachment-name", "default/tenant")]⟩)]

def order : Request where
  flavour := "small"
  image := "disk"
  interfaces := [.onSubnet "sub"]
  hints := [{ subnet := some "sub", mac := some "02-00-00-00-00-AB" }]

def ordered : Except Fault Resource × OneNode :=
  (Service.allocate (platform.host sample) {} order).run blank

theorem honours_of_ordered :
    sample.validate = .ok () ∧ Runs sample {} ordered.2 (enter {} order ∅ ordered.1) ∧
      (enter {} order ∅ ordered.1).contains "linux-vm" = true ∧
      Honours sample ordered.2 (enter {} order ∅ ordered.1) := by
  have hc : sample.validate = .ok () := by decide +kernel
  have hruns : Runs sample {} ordered.2 (enter {} order ∅ ordered.1) :=
    @Runs.allocate _ _ _ _ id blank ∅ (.start isNew_blank) (drives_host sample) order
  have hthere : (enter {} order ∅ ordered.1).contains "linux-vm" = true := by decide +kernel
  exact ⟨hc, hruns, hthere, honours_of_runs hc hruns⟩

end Tenancy

end VirtualInfra
