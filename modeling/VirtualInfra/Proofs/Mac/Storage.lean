import VirtualInfra.Proofs.Mac
import VirtualInfra.Proofs.Platform.History
import VirtualInfra.Proofs.Resolution.Indifference
import VirtualInfra.Proofs.Tenancy

namespace VirtualInfra

open Platform OneNode Store Text

def Machine.Spec.mac? (s : Machine.Spec) (k : Nat) : Option String :=
  s.nics[k + 1]?.bind (·.mac)

def Instance.mac? (i : Instance) (k : Nat) : Option String :=
  i.nics[k + 1]?.bind (·.mac)

namespace Request

variable {World : Type} {c : Catalogue} {d : Defaults} {r : Request} {spec : Machine.Spec}
  {hint hint' : Hint} {k : Nat} {text text' stored : String} {m : Mac}

def Hinted (r : Request) (k : Nat) (hint : Hint) (text : String) : Prop :=
  present? hint.mac = some text ∧ ∃ i id, r.interfaces[k]? = some i ∧
    i.selected? r.hints = some id ∧ subnetHint? r.hints id = some hint

section Respelling

variable {before after : List Hint}

/-- Only the address that a MAC text spells goes into an assignment. -/
theorem ofHint_respell (ht : present? hint.mac = some text) (hm : Mac.Spells text m)
    (hm' : Mac.Spells text' m) (id : String) (s : Subnet) :
    Assignment.ofHint id s (subnetHint? (before ++ { hint with mac := some text' } :: after) id) =
      Assignment.ofHint id s (subnetHint? (before ++ hint :: after) id) := by
  have hpresent : present? (some text') = some text' := hm'.nonBlank?_eq
  have hfold (h : Option Hint) : Assignment.ofHint id s h =
      (h.map fun h => Assignment.ofHint id s (some h)).getD (Assignment.ofHint id s none) := by
    cases h <;> rfl
  rw [hfold, hfold (subnetHint? (before ++ hint :: after) id)]
  refine congrArg (Option.getD · _) (find?_replace _ rfl ?_)
  simp only [Assignment.ofHint, ht, hpresent, Mac.ofText_eq_ok_iff.2 hm,
    Mac.ofText_eq_ok_iff.2 hm']

theorem compile_respell (host : Host World) (hr : r.hints = before ++ hint :: after)
    (ht : present? hint.mac = some text) (hm : Mac.Spells text m) (hm' : Mac.Spells text' m) :
    ({ r with hints := before ++ { hint with mac := some text' } :: after } : Request).compile host d =
      r.compile host d := by
  have hsame (i : Interface) : i.resolve host (before ++ { hint with mac := some text' } :: after) =
      i.resolve host (before ++ hint :: after) := by
    apply Interface.resolve_congr
    · rfl
    · rfl
    · apply selected?_replace
      · rfl
      · rfl
    · exact fun id _ s => ofHint_respell ht hm hm' id s
  apply compile_congr
  · rfl
  · rfl
  · rfl
  · rw [hr]
    exact List.forall₂_same.2 fun i _ => ⟨rfl, hsame i⟩

end Respelling

/-- The interface of a spec that is compiled has the address that the hint for it spells. -/
theorem Compiles.mac {resolved : List (Subnet × Assignment)}
    {attachments : List (Machine.Link × Machine.Nic)}
    (h : Compiles c d r resolved attachments spec) (hk : r.Hinted k hint text) :
    ∃ m, Mac.Spells text m ∧ spec.mac? k = some m.text := by
  obtain ⟨ht, i, id, hi, hid, hhint⟩ := hk
  obtain ⟨a, ha, hres⟩ := exists_getElem?_of_forall₂ h.resolves hi
  obtain ⟨attachment, hat, name, attached, -, -, rfl⟩ := exists_getElem?_of_forall₂ h.attaches ha
  obtain ⟨id', hid', -, -, mac, hmac, hassigned⟩ := hres.selected
  cases hid.symm.trans hid'
  have hbind : ((some hint).bind fun h => present? h.mac) = some text := ht
  rw [hhint, HintedMac, hbind] at hmac
  obtain ⟨m, hm, rfl⟩ := hmac
  refine ⟨m, Mac.ofText_eq_ok_iff.1 hm, ?_⟩
  rw [Machine.Spec.mac?, h.nics, List.getElem?_cons_succ, List.getElem?_map, hat, hassigned]
  rfl

def ReportsMac (w : OneNode) (name : String) (r : RunStrategy) (k : Nat) (stored : String) : Prop :=
  ∃ running, platform.running name w = (.ok running, w) ∧ (running = none ↔ r = .halted) ∧
    ∀ i ∈ running, i.mac? k = some stored

theorem mac?_start {m : Machine} (h : m.spec.mac? k = some stored) :
    (start m).mac? k = some stored := by
  obtain ⟨n, hn, hmac⟩ := Option.bind_eq_some_iff.1 h
  refine Option.bind_eq_some_iff.2 ⟨startNic m.uid n, ?_, ?_⟩
  · change (m.spec.nics.map (startNic m.uid))[k + 1]? = _
    rw [List.getElem?_map, hn]
    rfl
  · change some (n.mac.getD _) = _
    rw [hmac]
    rfl

theorem reportsMac_of_running {w : OneNode} {t : Table Stored} {name : String} {s : Stored}
    {strategy : RunStrategy} (h : w.Holds t) (hs : t.get? name = some s)
    (hrunning : s.running = if strategy = .halted then none else some (start s.machine))
    (hmac : s.machine.spec.mac? k = some stored) : ReportsMac w name strategy k stored := by
  refine ⟨s.running, running_of_some h hs, ?_⟩
  rw [hrunning]
  split
  · next hr => exact ⟨⟨fun _ => hr, fun _ => rfl⟩, nofun⟩
  · next hr =>
      refine ⟨⟨nofun, fun h => absurd h hr⟩, fun i hi => ?_⟩
      cases hi
      exact mac?_start hmac

/-- What becomes of the MAC address that a hint spells for an interface of a request: the spec has
its canonical form, no other spelling of it makes a difference, and every instance reports it. -/
structure StoresMac (c : Catalogue) (d : Defaults) (r : Request) (spec : Machine.Spec) (k : Nat)
    (hint : Hint) (text stored : String) : Prop where
  kept : spec.mac? k = some stored
  canonical : Mac.IsCanonical stored
  same : ∃ m, Mac.Spells text m ∧ Mac.Spells stored m
  replaced : ∀ before after, r.hints = before ++ hint :: after →
    ∀ ⦃World : Type⦄ (host : Host World),
      ({ r with hints := before ++ { hint with mac := some stored } :: after } : Request).compile
        host d = r.compile host d
  distinct : ∀ ⦃World : Type⦄ (p : Platform World) (w : World) c' d' r' spec' w' k' hint' text',
    (compile (p.host c') d' r').run w = (.ok spec', w') → Hinted r' k' hint' text' →
      (spec'.mac? k' = some stored ↔ ∃ m, Mac.Spells text m ∧ Mac.Spells text' m)
  created : ∀ w l name o, Origin.Runs w l → l.get? name = some o → o.spec = spec →
    ReportsMac w name o.runStrategy k stored
  allocated : ∀ w l name e, Tenancy.Runs c d w l → l.get? name = some e → e.request = r →
    ReportsMac w name e.runStrategy k stored

section Storing

variable {p : Platform World} {w w' : World}

theorem exists_mac_of_compiled (h : (r.compile (p.host c) d).run w = (.ok spec, w'))
    (hk : r.Hinted k hint text) : ∃ m, Mac.Spells text m ∧ spec.mac? k = some m.text := by
  obtain ⟨resolved, attachments, hc⟩ := compiles_of_run h
  exact hc.mac hk

theorem reportsMac_of_created {w : OneNode} {l : Table Origin} {name : String} {o : Origin}
    (h : Origin.Runs w l) (ho : l.get? name = some o) (hmac : o.spec.mac? k = some stored) :
    ReportsMac w name o.runStrategy k stored := by
  obtain ⟨t, ht, hl⟩ := Origin.records_of_runs h
  obtain ⟨s, hs, hso⟩ := Table.Rel.exists_left hl ho
  obtain ⟨hmachine, hrunning⟩ := Prod.mk.inj hso.content
  refine reportsMac_of_running ht hs ?_ ?_
  · rw [hrunning, hmachine]
    rfl
  · rw [hmachine]
    exact hmac

theorem reportsMac_of_allocated {w : OneNode} {l : Table Tenancy} {name : String} {e : Tenancy}
    (h : Tenancy.Runs c d w l) (he : l.get? name = some e) (hk : e.request.Hinted k hint text)
    (hm : Mac.Spells text m) : ReportsMac w name e.runStrategy k m.text := by
  obtain ⟨t, ht, ha⟩ := Tenancy.accounts_of_runs h
  obtain ⟨s, hs, hb⟩ := ha.exists_machine he
  obtain ⟨resolved, attachments, spec, hc, -, hspec⟩ := hb.compiled
  obtain ⟨m', hm', hmac⟩ := hc.mac hk
  refine reportsMac_of_running ht hs ?_ ?_
  · rw [hb.settled.running, hspec]
  · rw [hspec, hm.unique hm']
    exact hmac

/-- Every MAC address that a hint gives to an interface of a request that compiles is stored in its
canonical form. -/
theorem storesMac_of_compiled (h : (r.compile (p.host c) d).run w = (.ok spec, w'))
    (hk : r.Hinted k hint text) : ∃ stored, StoresMac c d r spec k hint text stored := by
  obtain ⟨m, hm, hmac⟩ := exists_mac_of_compiled h hk
  refine ⟨m.text, hmac, m.isCanonical_text, ⟨m, hm, m.spells_text⟩, ?_, ?_, ?_, ?_⟩
  · exact fun before after hr World host => compile_respell host hr hk.1 hm m.spells_text
  · intro World p v c' d' r' spec' v' k' hint' text' h' hk'
    obtain ⟨m', hm', hmac'⟩ := exists_mac_of_compiled h' hk'
    rw [hmac', Option.some.injEq, Mac.text_inj]
    constructor
    · rintro rfl
      exact ⟨m', hm, hm'⟩
    · rintro ⟨m'', h₁, h₂⟩
      rw [hm'.unique h₂, hm.unique h₁]
  · rintro node l name o hruns ho rfl
    exact reportsMac_of_created hruns ho hmac
  · rintro node l name e hruns he rfl
    exact reportsMac_of_allocated hruns he hk hm

section Spelled

def spelledHint : Hint := { subnet := some "sub", mac := some " 0200-00-0000-aB " }

def spelled : Request := { Tenancy.order with hints := [spelledHint] }

theorem storesMac_spelled : ∃ spec,
    ((spelled.compile (platform.host Tenancy.sample) {}).run blank).1 = .ok spec ∧
      spelled.Hinted 0 spelledHint "0200-00-0000-aB" ∧
        StoresMac Tenancy.sample {} spelled spec 0 spelledHint "0200-00-0000-aB"
          "02:00:00:00:00:ab" := by
  have hrun : ((spelled.compile (platform.host Tenancy.sample) {}).run blank).1.map (·.mac? 0) =
      .ok (some "02:00:00:00:00:ab") := by
    decide +kernel
  obtain ⟨spec, hspec, hmac⟩ := Except.map_eq_ok_iff.1 hrun
  have hhinted : spelled.Hinted 0 spelledHint "0200-00-0000-aB" :=
    ⟨by decide +kernel, .onSubnet "sub", "sub", rfl, by decide +kernel, by decide +kernel⟩
  obtain ⟨stored, hstored⟩ := storesMac_of_compiled (Prod.ext hspec rfl) hhinted
  cases hmac.symm.trans hstored.kept
  exact ⟨spec, hspec, hhinted, hstored⟩

end Spelled

end Storing

end Request

end VirtualInfra
