import VirtualInfra.Proofs.Resolution

/-!
Resolving an interface as a table of rules. The rules are told apart by what the ids and the hints
name, so that one of them decides for every interface, and none puts a machine on a network that was
not asked for.
-/

namespace VirtualInfra

open Text

def Catalogue.Keyed (c : Catalogue) : Prop := ∀ e ∈ c.subnets.entries, e.2.id = e.1

instance (c : Catalogue) : Decidable c.Keyed := by
  unfold Catalogue.Keyed
  infer_instance

theorem Catalogue.Keyed.id_eq {c : Catalogue} (h : c.Keyed) {id : String} {s : Subnet}
    (hs : c.subnets.get? id = some s) : s.id = id :=
  h _ (Table.get?_eq_some_iff_mem.1 hs)

namespace Request

variable {field : Option String} {id id' n text : String} {hints : List Hint} {h : Hint}
  {key : Hint → Option String} {c : Catalogue} {i : Interface}

/-- The field names the id, apart from blanks around it. A blank field names none. -/
def Names (field : Option String) (id : String) : Prop :=
  ∃ text, field = some text ∧ trim text = id ∧ id ≠ ""

def IsFirst (key : Hint → Option String) (id : String) (hints : List Hint) (h : Hint) : Prop :=
  ∃ before after, hints = before ++ h :: after ∧ Names (key h) id ∧
    ∀ b ∈ before, ¬ Names (key b) id

section Naming

theorem trim_eq_empty_iff : trim text = "" ↔ isBlankText text = true := by
  rw [trim, isBlankText, ← strip_eq_nil_iff, ← String.toList_inj, String.toList_ofList]
  rfl

theorem names_iff : Names field id ↔ present? field = some id := by
  cases field with
  | none => simp [Names, present?]
  | some text =>
      change _ ↔ nonBlank? text = some id
      rw [nonBlank?]
      split
      · next hb =>
          constructor
          · rintro ⟨_, ht, rfl, hne⟩
            cases ht
            exact absurd (trim_eq_empty_iff.2 hb) hne
          · nofun
      · next hb =>
          rw [Option.some.injEq]
          constructor
          · rintro ⟨_, ht, rfl, -⟩
            cases ht
            rfl
          · rintro rfl
            exact ⟨text, rfl, rfl, fun he => hb (trim_eq_empty_iff.1 he)⟩

theorem not_names_iff : (∀ id, ¬ Names field id) ↔ present? field = none := by
  simp only [names_iff, Option.eq_none_iff_forall_ne_some, ne_eq]

theorem isFirst_iff :
    IsFirst key id hints h ↔ hints.find? (fun h => present? (key h) = some id) = some h := by
  rw [List.find?_eq_some_iff_append]
  simp only [IsFirst, names_iff, decide_eq_true_eq, Bool.not_eq_true', decide_eq_false_iff_not]
  constructor
  · rintro ⟨before, after, hsplit, hh, hb⟩
    exact ⟨hh, before, after, hsplit, hb⟩
  · rintro ⟨hh, before, after, hsplit, hb⟩
    exact ⟨before, after, hsplit, hh, hb⟩

theorem isFirst_network_iff : IsFirst Hint.network id hints h ↔ networkHint? hints id = some h :=
  isFirst_iff

theorem isFirst_subnet_iff : IsFirst Hint.subnet id hints h ↔ subnetHint? hints id = some h :=
  isFirst_iff

namespace IsFirst

theorem mem (hf : IsFirst key id hints h) : h ∈ hints := by
  obtain ⟨before, after, rfl, -, -⟩ := hf
  exact List.mem_append_right _ List.mem_cons_self

theorem names (hf : IsFirst key id hints h) : Names (key h) id := by
  obtain ⟨-, -, -, hn, -⟩ := hf
  exact hn

theorem unique {h' : Hint} (hf : IsFirst key id hints h) (hf' : IsFirst key id hints h') : h = h' :=
  Option.some.inj ((isFirst_iff.1 hf).symm.trans (isFirst_iff.1 hf'))

theorem append (hf : IsFirst key id hints h) (more : List Hint) :
    IsFirst key id (hints ++ more) h := by
  obtain ⟨before, after, rfl, hn, hb⟩ := hf
  exact ⟨before, after ++ more, List.append_assoc .., hn, hb⟩

end IsFirst

theorem exists_isFirst (hn : ∃ h ∈ hints, Names (key h) id) : ∃ h, IsFirst key id hints h := by
  obtain ⟨h, hmem, hn⟩ := hn
  cases hf : hints.find? fun h => present? (key h) = some id with
  | none => exact absurd (decide_eq_true (names_iff.1 hn)) (List.find?_eq_none.1 hf h hmem)
  | some b => exact ⟨b, isFirst_iff.2 hf⟩

end Naming

namespace Interface

/-- Which subnet an interface asks for, or why it asks for none. -/
inductive Asks (c : Catalogue) (hints : List Hint) (i : Interface) :
    Except Fault.Kind String → Prop
  | own {id : String} (subnet : Names i.subnet id) : Asks c hints i (.ok id)
  | unidentified (subnet : ∀ id, ¬ Names i.subnet id) (network : ∀ n, ¬ Names i.network n) :
      Asks c hints i (.error .invalidRequest)
  | unknown {n : String} (subnet : ∀ id, ¬ Names i.subnet id) (network : Names i.network n)
      (missing : c.networks.get? n = none) : Asks c hints i (.error .notFound)
  | overlay {n : String} {net : Network} (subnet : ∀ id, ¬ Names i.subnet id)
      (network : Names i.network n) (found : c.networks.get? n = some net)
      (kind : net.kind = .overlay) : Asks c hints i (.error .invalidRequest)
  | hinted {n id : String} {net : Network} {h : Hint} (subnet : ∀ id, ¬ Names i.subnet id)
      (network : Names i.network n) (found : c.networks.get? n = some net)
      (kind : net.kind = .underlay) (first : IsFirst Hint.network n hints h)
      (names : Names h.subnet id) : Asks c hints i (.ok id)
  | unhinted {n : String} {net : Network} (subnet : ∀ id, ¬ Names i.subnet id)
      (network : Names i.network n) (found : c.networks.get? n = some net)
      (kind : net.kind = .underlay)
      (none : ∀ h, IsFirst Hint.network n hints h → ∀ id, ¬ Names h.subnet id) :
      Asks c hints i (.error .notImplemented)

inductive Gets (c : Catalogue) (hints : List Hint) (i : Interface) (asked : String) :
    Except Fault.Kind (Subnet × Assignment) → Prop
  | unknown (missing : c.subnets.get? asked = none) : Gets c hints i asked (.error .notFound)
  | foreign {s : Subnet} {n : String} (found : c.subnets.get? asked = some s)
      (network : Names i.network n) (parent : s.parent ≠ some n) :
      Gets c hints i asked (.error .invalidRequest)
  | fixed {s : Subnet} {h : Hint} (found : c.subnets.get? asked = some s)
      (parent : ∀ n, Names i.network n → s.parent = some n)
      (first : IsFirst Hint.subnet asked hints h) (address : h.address ≠ none) :
      Gets c hints i asked (.error .notImplemented)
  | malformed {s : Subnet} {h : Hint} {text : String} {p : Mac.Problem}
      (found : c.subnets.get? asked = some s)
      (parent : ∀ n, Names i.network n → s.parent = some n)
      (first : IsFirst Hint.subnet asked hints h) (address : h.address = none)
      (mac : Names h.mac text) (bad : Mac.ofText text = .error p) :
      Gets c hints i asked (.error .invalidRequest)
  | assigned {s : Subnet} {h : Hint} {text : String} {mac : Mac}
      (found : c.subnets.get? asked = some s)
      (parent : ∀ n, Names i.network n → s.parent = some n)
      (first : IsFirst Hint.subnet asked hints h) (address : h.address = none)
      (named : Names h.mac text) (good : Mac.ofText text = .ok mac) :
      Gets c hints i asked (.ok (s, { subnet := s.id, mac := some mac }))
  | plain {s : Subnet} (found : c.subnets.get? asked = some s)
      (parent : ∀ n, Names i.network n → s.parent = some n)
      (none : ∀ h, IsFirst Hint.subnet asked hints h →
        h.address = none ∧ ∀ text, ¬ Names h.mac text) :
      Gets c hints i asked (.ok (s, { subnet := s.id }))

/-- How an interface is resolved, by the first rule that applies. -/
inductive Decides (c : Catalogue) (hints : List Hint) (i : Interface) :
    Except Fault.Kind (Subnet × Assignment) → Prop
  | refused {k : Fault.Kind} (asks : Asks c hints i (.error k)) : Decides c hints i (.error k)
  | asked {id : String} {r : Except Fault.Kind (Subnet × Assignment)}
      (asks : Asks c hints i (.ok id)) (gets : Gets c hints i id r) : Decides c hints i r

section Rules

variable {s : Subnet} {a : Assignment} {asked : String}
  {r r' : Except Fault.Kind (Subnet × Assignment)} {q q' : Except Fault.Kind String}

theorem Asks.unique (hq : Asks c hints i q) (hq' : Asks c hints i q') : q = q' := by
  cases hq <;> cases hq' <;> simp_all [names_iff, isFirst_network_iff]

theorem Gets.unique (hr : Gets c hints i asked r) (hr' : Gets c hints i asked r') : r = r' := by
  cases hr <;> cases hr' <;> simp_all [names_iff, isFirst_subnet_iff]

/-- No two rules contradict each other. -/
theorem Decides.unique (hr : Decides c hints i r) (hr' : Decides c hints i r') : r = r' := by
  cases hr with
  | refused hk =>
      cases hr' with
      | refused hk' => cases hk.unique hk'; rfl
      | asked ha => cases hk.unique ha
  | asked ha hg =>
      cases hr' with
      | refused hk => cases ha.unique hk
      | asked ha' hg' =>
          cases ha.unique ha'
          exact hg.unique hg'

def verdict (x : Except Fault (Subnet × Assignment)) : Except Fault.Kind (Subnet × Assignment) :=
  x.mapError Fault.kind

theorem gets_ofHint (found : c.subnets.get? asked = some s)
    (parent : ∀ n, Names i.network n → s.parent = some n) :
    Gets c hints i asked (verdict ((Assignment.ofHint asked s (subnetHint? hints asked)).map
      fun a => (s, a))) := by
  cases hh : subnetHint? hints asked with
  | none => exact .plain found parent fun h hf => absurd (isFirst_subnet_iff.1 hf) (by simp [hh])
  | some h =>
      have first := isFirst_subnet_iff.2 hh
      unfold Assignment.ofHint
      cases ha : h.address with
      | some address =>
          simp only [ha]
          exact .fixed found parent first (by rw [ha]; nofun)
      | none =>
          simp only [ha]
          cases hm : present? h.mac with
          | none =>
              refine .plain found parent fun h' first' => ?_
              cases Option.some.inj (hh.symm.trans (isFirst_subnet_iff.1 first'))
              exact ⟨ha, not_names_iff.2 hm⟩
          | some text =>
              have named := names_iff.2 hm
              simp only []
              cases ht : Mac.ofText text with
              | error p => exact .malformed found parent first ha named ht
              | ok mac => exact .assigned found parent first ha named ht

theorem settle_of_parent (parent : ∀ n, Names i.network n → s.parent = some n) :
    settle asked (present? i.network) hints s =
      (Assignment.ofHint asked s (subnetHint? hints asked)).map fun a => (s, a) := by
  unfold settle
  cases hn : present? i.network with
  | none => cases Assignment.ofHint asked s (subnetHint? hints asked) <;> rfl
  | some n =>
      simp only [parent n (names_iff.2 hn), ne_eq, not_true_eq_false, if_false]
      cases Assignment.ofHint asked s (subnetHint? hints asked) <;> rfl

theorem settle_of_foreign (network : Names i.network n) (parent : s.parent ≠ some n) :
    settle asked (present? i.network) hints s =
      .error (Fault.Cause.foreignSubnet asked n s.parent) := by
  unfold settle
  rw [names_iff.1 network]
  simp only [ne_eq, parent, not_false_eq_true, if_true]
  rfl

theorem gets_settle (found : c.subnets.get? asked = some s) :
    Gets c hints i asked (verdict (settle asked (present? i.network) hints s)) := by
  by_cases parent : ∀ n, Names i.network n → s.parent = some n
  · rw [settle_of_parent parent]
    exact gets_ofHint found parent
  · simp only [Classical.not_forall] at parent
    obtain ⟨n, network, parent⟩ := parent
    rw [settle_of_foreign network parent]
    exact .foreign found network parent

variable {World : Type} (p : Platform World) (w : World)

theorem gets_of_run_resolveSubnet (hints : List Hint) (asked : String) :
    ∃ x, (resolveSubnet (p.host c) asked (present? i.network) hints).run w = (x, w) ∧
      Gets c hints i asked (verdict x) := by
  have hrun : ((p.host c).race "get subnet" (.subnet (.byId asked))).run w =
      (c.subnet (.byId asked), w) := p.run_race_host c _ _ w
  rw [resolveSubnet_eq, Act.run_bind, Act.run_within, hrun]
  cases found : c.subnets.get? asked with
  | none =>
      have hs : c.subnet (.byId asked) = .error (Fault.Cause.unknown .subnet s!"id={asked}") := by
        rw [Catalogue.subnet, Catalogue.select?, found]
        rfl
      rw [hs]
      exact ⟨_, rfl, .unknown found⟩
  | some s =>
      rw [show c.subnet (.byId asked) = .ok s from Catalogue.found_eq_ok_iff.2 found]
      exact ⟨_, rfl, gets_settle found⟩

theorem decides_of_run (c : Catalogue) (hints : List Hint) (i : Interface) :
    ∃ x, (i.resolve (p.host c) hints).run w = (x, w) ∧ Decides c hints i (verdict x) := by
  have hrun (n : String) : ((p.host c).race "get network" (.network n)).run w =
      (c.network n, w) := p.run_race_host c _ _ w
  unfold resolve
  split
  · next asked hs =>
      obtain ⟨x, hx, hg⟩ := gets_of_run_resolveSubnet p w hints asked
      exact ⟨x, hx, .asked (.own (names_iff.2 hs)) hg⟩
  · next hs hn => exact ⟨_, rfl, .refused (.unidentified (not_names_iff.2 hs) (not_names_iff.2 hn))⟩
  · next n hs hn =>
      have subnet := not_names_iff.2 hs
      have network := names_iff.2 hn
      cases found : c.networks.get? n with
      | none =>
          have hf : c.network n = .error (Fault.Cause.unknown .network n) := by
            rw [Catalogue.network, found]
            rfl
          rw [Act.run_bind, Act.run_within, hrun, hf]
          exact ⟨_, rfl, .refused (.unknown subnet network found)⟩
      | some net =>
          have hnet : (((p.host c).race "get network" (.network n)).within
              s!"resolve network {n}").run w = (.ok net, w) := by
            rw [Act.run_within, hrun, show c.network n = .ok net from
              Catalogue.found_eq_ok_iff.2 found]
            rfl
          rw [Act.run_bind_of_ok hnet]
          cases kind : net.kind with
          | overlay => exact ⟨_, rfl, .refused (.overlay subnet network found kind)⟩
          | underlay =>
              simp only []
              cases hh : (networkHint? hints n).bind fun h => present? h.subnet with
              | none =>
                  refine ⟨_, rfl, .refused (.unhinted subnet network found kind fun h first => ?_)⟩
                  rw [isFirst_network_iff.1 first, Option.bind_some] at hh
                  exact not_names_iff.2 hh
              | some asked =>
                  obtain ⟨h, first, names⟩ := Option.bind_eq_some_iff.1 hh
                  obtain ⟨x, hx, hg⟩ := gets_of_run_resolveSubnet p w hints asked
                  rw [hn] at hx
                  exact ⟨x, hx, .asked (.hinted subnet network found kind
                    (isFirst_network_iff.2 first) (names_iff.2 names)) hg⟩

theorem resolves_iff : Resolves c hints i s a ↔ Decides c hints i (.ok (s, a)) := by
  constructor
  · intro hr
    obtain ⟨x, hx, hd⟩ := decides_of_run Platform.Memory.platform {} c hints i
    rw [hr] at hx
    cases hx
    exact hd
  · intro hd World p w
    obtain ⟨x, hx, hd'⟩ := decides_of_run p w c hints i
    rw [hx]
    have hv := hd'.unique hd
    cases x with
    | error f => cases hv
    | ok _ =>
        cases hv
        rfl

/-- What is true of every subnet that an interface is given: it is a record of the catalogue and on
the network that was asked for, and it comes with no fixed address. -/
structure Placed (c : Catalogue) (hints : List Hint) (i : Interface) (s : Subnet)
    (a : Assignment) : Prop where
  known : ∃ id, Asks c hints i (.ok id) ∧ c.subnets.get? id = some s ∧ (c.Keyed → s.id = id)
  own : ∀ id, Names i.subnet id → c.subnets.get? id = some s
  parent : ∀ n, Names i.network n → s.parent = some n
  subnet : a.subnet = s.id
  address : a.address = none

theorem Gets.of_ok (hg : Gets c hints i asked (.ok (s, a))) :
    c.subnets.get? asked = some s ∧ (∀ n, Names i.network n → s.parent = some n) ∧
      a.subnet = s.id ∧ a.address = none ∧ ∀ h, IsFirst Hint.subnet asked hints h → h.address = none := by
  cases hg with
  | @assigned _ h _ _ found parent first address =>
      refine ⟨found, parent, rfl, rfl, fun h' first' => ?_⟩
      rw [← first.unique first']
      exact address
  | plain found parent none => exact ⟨found, parent, rfl, rfl, fun h first => (none h first).1⟩

theorem Decides.of_ok (hd : Decides c hints i (.ok (s, a))) :
    ∃ id, Asks c hints i (.ok id) ∧ Gets c hints i id (.ok (s, a)) := by
  cases hd with
  | asked asks gets => exact ⟨_, asks, gets⟩

theorem Decides.placed (hd : Decides c hints i (.ok (s, a))) : Placed c hints i s a := by
  obtain ⟨asked, asks, gets⟩ := hd.of_ok
  obtain ⟨found, parent, subnet, address, -⟩ := gets.of_ok
  refine ⟨⟨asked, asks, found, fun hk => hk.id_eq found⟩, fun id hid => ?_, parent, subnet, address⟩
  cases asks.unique (.own hid)
  exact found

/-- For every interface and all hints one rule decides, whatever platform there is. -/
theorem resolve_decides (c : Catalogue) (hints : List Hint) (i : Interface) :
    ∃ x, (i.resolve (p.host c) hints).run w = (x, w) ∧
      (∀ r, Decides c hints i r ↔ verdict x = r) ∧
      ∀ s a, x = .ok (s, a) → Placed c hints i s a := by
  obtain ⟨x, hx, hd⟩ := decides_of_run p w c hints i
  refine ⟨x, hx, fun r => ⟨hd.unique, fun h => h ▸ hd⟩, fun s a hok => ?_⟩
  subst hok
  exact Decides.placed hd

end Rules

end Interface

end Request

end VirtualInfra
