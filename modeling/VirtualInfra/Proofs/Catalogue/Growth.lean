import VirtualInfra.Proofs.Catalogue.Acceptance
import VirtualInfra.Proofs.Tenancy

namespace VirtualInfra

variable {World : Type} {host : Host World} {c c' : Catalogue}

namespace Catalogue

structure Extends (c c' : Catalogue) : Prop where
  defaults : c'.defaults = c.defaults
  flavours : c.flavours.Within c'.flavours
  images : c.images.Within c'.images
  networks : c.networks.Within c'.networks
  subnets : c.subnets.Within c'.subnets

theorem Extends.refl (c : Catalogue) : c.Extends c :=
  ⟨rfl, .refl _, .refl _, .refl _, .refl _⟩

theorem extends_of_add {a : Addition} (h : a.add c = .ok c') : c.Extends c' := by
  rw [add_eq_ite] at h
  split at h
  · cases h
  · next hfree =>
      cases h
      rw [Option.not_isSome_iff_eq_none] at hfree
      cases a with
      | flavour f =>
          exact { Extends.refl c with
            flavours := Table.within_insert (Option.map_eq_none_iff.1 hfree) f }
      | image i =>
          exact { Extends.refl c with
            images := Table.within_insert (Option.map_eq_none_iff.1 hfree) i }
      | network n =>
          exact { Extends.refl c with
            networks := Table.within_insert (Option.map_eq_none_iff.1 hfree) n }
      | subnet s =>
          exact { Extends.refl c with
            subnets := Table.within_insert (Option.map_eq_none_iff.1 hfree) s }

theorem exists_of_subnetNamed? {key : Metadata.Key} {value : String} {s : Subnet}
    (h : c.subnetNamed? key value = some s) :
    ∃ id, c.subnets.get? id = some s ∧ s.metadata.value? key = some value := by
  rw [subnetNamed?] at h
  obtain ⟨id, hs⟩ := Table.mem_values_iff.1 (List.mem_of_find?_eq_some h)
  have hvalue := List.find?_some h
  exact ⟨id, hs, of_decide_eq_true hvalue⟩

namespace Extends

/-- The records that were added cannot stand before the one that was selected, since no two subnets
of a valid catalogue have a name in common. -/
theorem select? (h : c.Extends c') (hv : c'.validate = .ok ()) {selector : Subnet.Selector}
    {s : Subnet} (hs : c.select? selector = some s) : c'.select? selector = some s := by
  have hnamed (key : Metadata.Key) (hkey : key ∈ selectingKeys) (value : String)
      (hs : c.subnetNamed? key value = some s) : c'.subnetNamed? key value = some s := by
    obtain ⟨id, hid, hvalue⟩ := exists_of_subnetNamed? hs
    exact subnetNamed?_of_validate hv hkey (h.subnets id s hid) hvalue
  cases selector with
  | byId id => exact h.subnets id s hs
  | byName name => exact hnamed .subnet (by decide) name hs
  | byAttachment name => exact hnamed .attachment (by decide) name hs

theorem findsIn (h : c.Extends c') (hv : c'.validate = .ok ()) (hc : host.Consults c) :
    host.FindsIn c' := by
  intro α V call p w v a hl ha
  have hanswer := hc call p w v hl
  rw [ha] at hanswer
  have hfound : (p.answer c call v).1 = .ok a := congrArg Prod.fst hanswer
  rw [p.answer_of_isLookUp c' p hl v v]
  refine Prod.ext ?_ rfl
  cases call with
  | flavour id => exact found_eq_ok_iff.2 (h.flavours id a (found_eq_ok_iff.1 hfound))
  | image id => exact found_eq_ok_iff.2 (h.images id a (found_eq_ok_iff.1 hfound))
  | network id => exact found_eq_ok_iff.2 (h.networks id a (found_eq_ok_iff.1 hfound))
  | subnet selector => exact found_eq_ok_iff.2 (h.select? hv (found_eq_ok_iff.1 hfound))
  | create | machine | running | machines | setRunStrategy | delete => cases hl

end Extends

/-- Whatever is compiled or seen with the smaller catalogue, whenever the caller may cancel, is
compiled and seen alike with the larger one. -/
structure Conserves (c c' : Catalogue) : Prop where
  compiled : ∀ {World Other : Type} (host : Host World) (p : Platform Other) (r : Request) w v spec,
    host.Consults c → ((r.compile host c.defaults).run w).1 = .ok spec →
      (r.compile (p.host c') c'.defaults).run v = (.ok spec, v)
  seen : ∀ {World Other : Type} (host : Host World) (p : Platform Other) (m : Machine)
    (i : Option Instance) w v resource, host.Consults c →
      ((m.project host i).run w).1 = .ok resource →
      (m.project (p.host c') i).run v = (.ok resource, v)

/-- Nothing that worked with a catalogue changes when records are added to it, as long as the result
is valid. -/
theorem conserves_of_extends (h : c.Extends c') (hv : c'.validate = .ok ()) : c.Conserves c' where
  compiled host p r w v spec hc hspec := by
    rw [h.defaults]
    exact Request.follows_compile (h.findsIn hv hc) p c.defaults r w v spec hspec
  seen host p m i w v resource hc hresource :=
    Machine.follows_project (h.findsIn hv hc) p m i w v resource hresource

section Growing

open Tenancy Platform.OneNode

def newcomer : Addition :=
  .subnet ⟨"another", some "net", none, .ofList [
    ("kubevim.io/subnet-name", "other"), ("kubevim.io/attachment-name", "default/other")]⟩

def peopled : Catalogue := newcomer.put Tenancy.sample

theorem conserves_sample : Tenancy.sample.Extends peopled ∧ peopled.validate = .ok () ∧
    Tenancy.sample.Conserves peopled ∧
    ∃ spec, ((order.compile (platform.host Tenancy.sample) {}).run blank).1 = .ok spec ∧
      (order.compile (platform.host peopled) {}).run blank = (.ok spec, blank) := by
  have hadd : newcomer.add Tenancy.sample = .ok peopled := by decide +kernel
  have hextends : Tenancy.sample.Extends peopled := extends_of_add hadd
  have hvalid : peopled.validate = .ok () := by decide +kernel
  have hconserves := conserves_of_extends hextends hvalid
  refine ⟨hextends, hvalid, hconserves, ?_⟩
  have hcompiles : ((order.compile (platform.host Tenancy.sample) {}).run blank).1.isOk = true := by
    decide +kernel
  cases hspec : ((order.compile (platform.host Tenancy.sample) {}).run blank).1 with
  | error f =>
      rw [hspec] at hcompiles
      cases hcompiles
  | ok spec =>
      exact ⟨spec, rfl, hconserves.compiled _ platform order blank blank spec
        (platform.consults_host Tenancy.sample) hspec⟩

end Growing

end Catalogue

end VirtualInfra
