import Mathlib.Control.Monad.Basic
import VirtualInfra.Proofs.Catalogue.Acceptance
import VirtualInfra.Proofs.Tenancy

namespace VirtualInfra

open Platform OneNode Store Request

namespace Service

variable {World : Type} {host : Host World} {p : Platform World} {c : Catalogue} {d : Defaults}
  {w : World} {ms : List Machine} {resources : List Resource}

theorem run_views (h : List.Forall₂ (fun m r => (view host m).run w = (.ok r, w)) ms resources) :
    (views host ms).run w = (.ok resources, w) := by
  induction h with
  | nil => rfl
  | @cons m resource ms resources hm _ ih =>
      have hout : (view host m).outcome.run w = (.ok (.ok resource), w) := by
        rw [Act.run_outcome, hm]
      rw [views, Act.run_bind_of_ok hout]
      exact Act.run_bind_of_ok ih

theorem run_list (hms : p.machines w = (.ok ms, w)) :
    (list (p.host c) d).run w =
      (views (p.host c)
        (ms.filter fun m => m.spec.label? Machine.managerLabel = some d.manager)).run w := by
  have hrace : (((p.host c).race "list VMs" .machines).within "list VMs").run w = (.ok ms, w) := by
    rw [Act.run_within, run_race_host, answer, hms]
    rfl
  exact Act.run_bind_of_ok hrace

end Service

namespace Tenancy

variable {c : Catalogue} {d : Defaults} {name text : String} {m : Stored} {e : Tenancy}
  {w : OneNode} {t : Table Stored} {l : Table Tenancy}

/-- The manager's mark is on every machine, but an empty one is not seen. -/
theorem Backs.label?_manager (h : Backs c d name m e) :
    m.machine.spec.label? Machine.managerLabel = some d.manager ↔ d.manager ≠ "" := by
  obtain ⟨resolved, attachments, spec, hspec, -, hm⟩ := h.compiled
  have hmark : m.machine.spec.labels.get? Machine.managerLabel = some d.manager := by
    rw [hm]
    exact hspec.manager
  rw [Machine.Spec.label?, hmark, Option.filter_eq_some_iff]
  exact ⟨fun he => of_decide_eq_true he.2, fun hne => ⟨rfl, decide_eq_true hne⟩⟩

def Shows (c : Catalogue) (w : OneNode) (name : String) (resource : Resource) : Prop :=
  (Service.query (platform.host c) name).run w = (.ok resource, w) ∧ resource.name = name

section Accounts

variable (ha : Accounts c d t l)

include ha

theorem label?_manager_of_mem {machine : Machine} (hmem : machine ∈ t.values.map (·.machine)) :
    machine.spec.label? Machine.managerLabel = some d.manager ↔ d.manager ≠ "" := by
  obtain ⟨m, hm, rfl⟩ := List.mem_map.1 hmem
  obtain ⟨name, hname⟩ := Table.mem_values_iff.1 hm
  obtain ⟨e, -, hb⟩ := ha.exists_tenancy hname
  exact hb.label?_manager

variable (h : w.Holds t)

include h

theorem run_list_of_unmarked (hd : d.manager = "") :
    (Service.list (platform.host c) d).run w = (.ok [], w) := by
  have hnone : (t.values.map (·.machine)).filter
      (fun m => m.spec.label? Machine.managerLabel = some d.manager) = [] := by
    rw [List.filter_eq_nil_iff]
    intro machine hm
    rw [decide_eq_true_eq, label?_manager_of_mem ha hm]
    exact fun hne => hne hd
  rw [Service.run_list (machines_of_holds h), hnone]
  rfl

theorem exists_view (hc : c.validate = .ok ()) (hm : t.get? name = some m) : ∃ resource,
    (Service.view (platform.host c) m.machine).run w = (.ok resource, w) ∧
      Shows c w name resource := by
  obtain ⟨e, -, hb⟩ := ha.exists_tenancy hm
  obtain ⟨resource, hquery, hmirrors⟩ := run_query_of_backs h hc hm hb
  have hview := Service.run_query_eq_view (c := c) (machine_of_some h hm)
  exact ⟨resource, hview.symm.trans hquery, hquery, hmirrors.name⟩

theorem run_list_of_marked (hc : c.validate = .ok ()) (hd : d.manager ≠ "") :
    ∃ resources, (Service.list (platform.host c) d).run w = (.ok resources, w) ∧
      List.Forall₂ (Shows c w) l.keys resources := by
  have hall : (t.values.map (·.machine)).filter
      (fun m => m.spec.label? Machine.managerLabel = some d.manager) =
        t.values.map (·.machine) := by
    rw [List.filter_eq_self]
    intro machine hm
    exact decide_eq_true ((label?_manager_of_mem ha hm).2 hd)
  -- one choice of resources for both halves, as the view that is listed and as what a query shows
  have hshown : ∀ entry ∈ t.entries, ∃ resource,
      (Service.view (platform.host c) entry.2.machine).run w = (.ok resource, w) ∧
        Shows c w entry.1 resource := by
    intro entry hentry
    exact exists_view ha h hc (Table.get?_eq_some_iff_mem.2 hentry)
  obtain ⟨resources, hrs⟩ := List.exists_forall₂_iff.2 hshown
  refine ⟨resources, ?_, ?_⟩
  · rw [Service.run_list (machines_of_holds h), hall]
    apply Service.run_views
    rw [Table.values, List.map_map, List.forall₂_map_left_iff]
    exact hrs.imp fun _ _ hr => hr.1
  · have hkeys : t.keys = l.keys := Table.Rel.keys_eq ha
    rw [← hkeys, Table.keys, List.forall₂_map_left_iff]
    exact hrs.imp fun _ _ hr => hr.2

end Accounts

/-- One resource for each tenancy, in the order of the names. Machines with an empty mark are passed
over all together. -/
structure Lists (c : Catalogue) (d : Defaults) (w : OneNode) (l : Table Tenancy) : Prop where
  present : ∃ st, w.load = .ok st ∧ st.machines.keys = l.keys
  complete : d.manager ≠ "" → ∃ resources,
    (Service.list (platform.host c) d).run w = (.ok resources, w) ∧
      List.Forall₂ (Shows c w) l.keys resources
  unmarked : d.manager = "" → (Service.list (platform.host c) d).run w = (.ok [], w)

/-- Whatever was done before on a catalogue that was read from a text, a list shows the machine of
every tenancy if there is a mark to know it by. -/
theorem lists_of_runs (hc : Catalogue.ofText text = .ok c) (h : Runs c c.defaults w l) :
    Lists c c.defaults w l := by
  obtain ⟨t, ht, ha⟩ := accounts_of_runs h
  have hvalid := (Catalogue.of_ofText hc).2
  refine ⟨?_, run_list_of_marked ha ht hvalid, run_list_of_unmarked ha ht⟩
  obtain ⟨st, hst, -, rfl⟩ := ht.load
  exact ⟨st, hst, Table.Rel.keys_eq ha⟩

def markedText (mark : String) : String :=
  "defaults \x7bmanaged-by \"" ++ mark ++ "\"\x7d\n" ++
    "flavour f1 \x7bmetadata \x7b\"kubevim.io/source\" kubevirt;" ++
    "\"kubevim.io/instancetype-name\" \"u1.small\"\x7d\x7d\nimage i1 name=ubuntu size=1"

def marked (mark : String) : Catalogue where
  defaults := { manager := mark }
  flavours := .ofList [("f1", ⟨"f1", none, none, .ofList [
    ("kubevim.io/source", "kubevirt"), ("kubevim.io/instancetype-name", "u1.small")]⟩)]
  images := .ofList [("i1", ⟨"i1", "ubuntu", 1, none⟩)]

def web : Request where
  flavour := "f1"
  image := "i1"
  name := "web"

def hosted (mark : String) : Except Fault Resource × OneNode :=
  (Service.allocate (platform.host (marked mark)) (marked mark).defaults web).run blank

theorem runs_hosted (mark : String) : Runs (marked mark) (marked mark).defaults (hosted mark).2
    (enter (marked mark).defaults web ∅ (hosted mark).1) :=
  @Runs.allocate _ _ _ _ id blank ∅ (.start isNew_blank) (drives_host (marked mark)) web

theorem lists_hosted : Catalogue.ofText (markedText "vim") = .ok (marked "vim") ∧
    (enter (marked "vim").defaults web ∅ (hosted "vim").1).keys = ["web"] ∧
    Lists (marked "vim") (marked "vim").defaults (hosted "vim").2
      (enter (marked "vim").defaults web ∅ (hosted "vim").1) := by
  have hc : Catalogue.ofText (markedText "vim") = .ok (marked "vim") := by decide +kernel
  have hkeys : (enter (marked "vim").defaults web ∅ (hosted "vim").1).keys = ["web"] := by
    decide +kernel
  exact ⟨hc, hkeys, lists_of_runs hc (runs_hosted "vim")⟩

/-- A machine whose mark is the empty text is there, and is not listed. -/
theorem not_lists_unmarked : ¬ ∀ text c w l, Catalogue.ofText text = .ok c →
    Runs c c.defaults w l → ∃ resources,
      (Service.list (platform.host c) c.defaults).run w = (.ok resources, w) ∧
        List.Forall₂ (Shows c w) l.keys resources := by
  intro hall
  have hc : Catalogue.ofText (markedText "") = .ok (marked "") := by decide +kernel
  have hkeys : (enter (marked "").defaults web ∅ (hosted "").1).keys = ["web"] := by
    decide +kernel
  obtain ⟨resources, hlist, hshown⟩ := hall _ _ _ _ hc (runs_hosted "")
  obtain ⟨t, ht, ha⟩ := accounts_of_runs (runs_hosted "")
  rw [run_list_of_unmarked ha ht rfl] at hlist
  cases hlist
  rw [hkeys] at hshown
  cases hshown

end Tenancy

end VirtualInfra
