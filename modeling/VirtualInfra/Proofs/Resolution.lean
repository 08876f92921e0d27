import VirtualInfra.Platform.Memory
import VirtualInfra.Proofs.Catalogue
import VirtualInfra.Proofs.Fault
import VirtualInfra.Proofs.Host
import VirtualInfra.Resolution

namespace VirtualInfra.Request

open Text

variable {World World' Other γ : Type} {host : Host World} {host' : Host World'}

def HintedMac (hint : Option Hint) (mac : Option Mac) : Prop :=
  match hint.bind fun h => present? h.mac with
  | none => mac = none
  | some text => ∃ m, Mac.ofText text = .ok m ∧ mac = some m

theorem ofHint_eq_ok_iff {asked : String} {s : Subnet} {hint : Option Hint} {a : Assignment} :
    Assignment.ofHint asked s hint = .ok a ↔
      (∀ h ∈ hint, h.address = none) ∧ ∃ mac, HintedMac hint mac ∧ a = { subnet := s.id, mac } := by
  unfold Assignment.ofHint HintedMac
  rcases hint with _ | ⟨network, subnet, _ | address, mac⟩
  · simp [eq_comm]
  · rcases hm : present? mac with _ | text
    · simp [hm, eq_comm]
    · rcases ht : Mac.ofText text with p | m
      · simp [hm, ht]
      · simp [hm, ht, eq_comm]
  · simp

namespace Interface

/-- The id of the subnet that an interface selects: the one that it names, or else the one that the
first hint for its network names. -/
def selected? (hints : List Hint) (i : Interface) : Option String :=
  match present? i.subnet, present? i.network with
  | some subnet, _ => some subnet
  | none, some network => (networkHint? hints network).bind fun h => present? h.subnet
  | none, none => none

def settle (asked : String) (network : Option String) (hints : List Hint) (s : Subnet) :
    Except Fault (Subnet × Assignment) := do
  if let some network := network then
    if s.parent ≠ some network then
      throw (Fault.Cause.foreignSubnet asked network s.parent : Fault)
  let assignment ← Assignment.ofHint asked s (subnetHint? hints asked)
  return (s, assignment)

theorem resolveSubnet_eq (asked : String) (network : Option String) (hints : List Hint) :
    resolveSubnet host asked network hints =
      Act.within s!"resolve subnet {asked}" (host.race "get subnet" (.subnet (.byId asked))) >>=
        fun s => (liftM (settle asked network hints s) : Act World _) := by
  unfold resolveSubnet settle
  refine bind_congr fun s => ?_
  rcases network with _ | network
  · rcases Assignment.ofHint asked s (subnetHint? hints asked) with f | a <;> rfl
  · by_cases h : s.parent = some network
    · simp only [h, ne_eq, not_true_eq_false, if_false]
      rcases Assignment.ofHint asked s (subnetHint? hints asked) with f | a <;> rfl
    · simp only [h, ne_eq, not_false_eq_true, if_true]
      rfl

theorem settle_eq_ok_iff {asked : String} {network : Option String} {hints : List Hint}
    {s s' : Subnet} {a : Assignment} :
    settle asked network hints s = .ok (s', a) ↔
      s' = s ∧ (∀ n ∈ network, s.parent = some n) ∧
        Assignment.ofHint asked s (subnetHint? hints asked) = .ok a := by
  have hlast : (do
      let assignment ← Assignment.ofHint asked s (subnetHint? hints asked)
      return (s, assignment)) = .ok (s', a) ↔
        s' = s ∧ Assignment.ofHint asked s (subnetHint? hints asked) = .ok a := by
    simp only [Except.bind_eq_ok_iff, Except.pure_eq_ok_iff, Prod.mk.injEq]
    constructor
    · rintro ⟨_, ha, rfl, rfl⟩
      exact ⟨rfl, ha⟩
    · rintro ⟨rfl, ha⟩
      exact ⟨a, ha, rfl, rfl⟩
  unfold settle
  rcases network with _ | network
  · simpa using hlast
  · by_cases h : s.parent = some network
    · simpa [h] using hlast
    · simp only [h, ne_eq, not_false_eq_true, if_true, Option.mem_def, Option.some.injEq,
        forall_eq', false_and, and_false, iff_false]
      intro he
      cases he

theorem keeps_resolve {view : World → γ}
    (hc : ∀ {α : Type} (c : Call α), c.changes = false → host.Spares view c)
    (i : Interface) (hints : List Hint) : Act.Keeps view (i.resolve host hints) := by
  have hs (asked : String) (network : Option String) :
      Act.Keeps view (resolveSubnet host asked network hints) := by
    rw [resolveSubnet_eq]
    exact (((hc _ rfl).race _).within _).bind fun s => .lift _
  rw [resolve]
  split
  · exact hs _ _
  · exact .throw _
  · refine (((hc _ rfl).race _).within _).bind fun n => ?_
    split
    · exact .throw _
    · split
      · exact hs _ _
      · exact .throw _

theorem maps_resolve {π : World' → World} (h : host'.Covers π host) (i : Interface)
    (hints : List Hint) : Act.Maps π (i.resolve host' hints) (i.resolve host hints) := by
  have hs (asked : String) (network : Option String) :
      Act.Maps π (resolveSubnet host' asked network hints)
        (resolveSubnet host asked network hints) := by
    rw [resolveSubnet_eq, resolveSubnet_eq]
    exact ((h.race _ _).within _).bind fun s => .lift _
  unfold resolve
  split
  · exact hs _ _
  · exact .throw _
  · refine ((h.race _ _).within _).bind fun n => ?_
    split
    · exact .throw _
    · split
      · exact hs _ _
      · exact .throw _

theorem follows_resolve {c : Catalogue} (h : host.FindsIn c) (p : Platform Other)
    (i : Interface) (hints : List Hint) :
    Act.Follows (i.resolve host hints) (i.resolve (p.host c) hints) := by
  have hs (asked : String) (network : Option String) :
      Act.Follows (resolveSubnet host asked network hints)
        (resolveSubnet (p.host c) asked network hints) := by
    rw [resolveSubnet_eq, resolveSubnet_eq]
    exact ((h.race rfl _ p).within _).bind fun s => .lift _
  unfold resolve
  split
  · exact hs _ _
  · exact .throw _
  · refine ((h.race rfl _ p).within _).bind fun n => ?_
    split
    · exact .throw _
    · split
      · exact hs _ _
      · exact .throw _

/-- The interface is resolved to a subnet with an assignment, whatever platform there is. -/
def Resolves (c : Catalogue) (hints : List Hint) (i : Interface) (s : Subnet)
    (a : Assignment) : Prop :=
  ∀ ⦃World : Type⦄ (p : Platform World) (w : World),
    (i.resolve (p.host c) hints).run w = (.ok (s, a), w)

variable {c : Catalogue} {p : Platform World} {hints : List Hint} {i : Interface} {s : Subnet}
  {a : Assignment} {w w' : World}

theorem resolves_of_run (h : (i.resolve (p.host c) hints).run w = (.ok (s, a), w')) :
    Resolves c hints i s a := by
  intro World p' v
  exact follows_resolve (Host.Consults.findsIn (p.consults_host c)) p' i hints w v (s, a) (by rw [h])

theorem run_resolveSubnet_eq_ok {asked : String} {network : Option String}
    (h : (resolveSubnet (p.host c) asked network hints).run w = (.ok (s, a), w')) :
    c.subnets.get? asked = some s ∧ Assignment.ofHint asked s (subnetHint? hints asked) = .ok a := by
  rw [resolveSubnet_eq, Act.run_bind_eq_ok_iff] at h
  obtain ⟨s', w'', hs, hw⟩ := h
  rw [Act.run_within, Platform.run_race_host, Prod.mk.injEq, Fault.mark_eq_ok_iff] at hs
  rw [Act.run_lift, Prod.mk.injEq, settle_eq_ok_iff] at hw
  obtain ⟨⟨rfl, -, ha⟩, -⟩ := hw
  exact ⟨Catalogue.found_eq_ok_iff.1 hs.1, ha⟩

/-- A resolved interface is on the subnet that it selects, and has the MAC address that the first
hint for this subnet assigns. -/
theorem Resolves.selected (h : Resolves c hints i s a) :
    ∃ id, i.selected? hints = some id ∧ c.subnets.get? id = some s ∧
      (∀ h ∈ subnetHint? hints id, h.address = none) ∧
        ∃ mac, HintedMac (subnetHint? hints id) mac ∧ a = { subnet := s.id, mac } := by
  have hid : ∃ id, i.selected? hints = some id ∧ c.subnets.get? id = some s ∧
      Assignment.ofHint id s (subnetHint? hints id) = .ok a := by
    have hr := h (Platform.Memory.platform) {}
    unfold resolve at hr
    rw [selected?]
    split at hr
    case h_1 hid =>
      rw [hid]
      exact ⟨_, rfl, run_resolveSubnet_eq_ok hr⟩
    case h_2 => cases hr
    case h_3 id hid hn =>
      rw [hid, hn]
      rw [Act.run_bind_eq_ok_iff] at hr
      obtain ⟨n, w, hw, hr⟩ := hr
      split at hr
      · cases hr
      · split at hr
        case h_1 id hid => exact ⟨id, hid, run_resolveSubnet_eq_ok hr⟩
        case h_2 => cases hr
  obtain ⟨id, hs, hg, ha⟩ := hid
  exact ⟨id, hs, hg, ofHint_eq_ok_iff.1 ha⟩

end Interface

end VirtualInfra.Request
