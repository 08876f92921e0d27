import VirtualInfra.Proofs.Resolution.Decision

namespace VirtualInfra.Request

open Text

variable {key : Hint → Option String} {id asked : String} {hints before after more : List Hint}
  {h : Hint} {c : Catalogue} {i : Interface} {s : Subnet} {a : Assignment}

namespace Interface

theorem Asks.append (ha : Asks c hints i (.ok asked)) (more : List Hint) :
    Asks c (hints ++ more) i (.ok asked) := by
  cases ha with
  | own subnet => exact .own subnet
  | hinted subnet network found kind first names =>
      exact .hinted subnet network found kind (first.append more) names

theorem Gets.append (hn : ∃ h ∈ hints, Names h.subnet asked)
    (hg : Gets c hints i asked (.ok (s, a))) (more : List Hint) :
    Gets c (hints ++ more) i asked (.ok (s, a)) := by
  cases hg with
  | assigned found parent first address named good =>
      exact .assigned found parent (first.append more) address named good
  | plain found parent none =>
      obtain ⟨h, first⟩ := exists_isFirst hn
      refine .plain found parent fun h' first' => ?_
      rw [← (first.append more).unique first']
      exact none h first

structure HeedsFirst (c : Catalogue) (hints : List Hint) (i : Interface) : Prop where
  refused : ∀ asked s h, Asks c hints i (.ok asked) → c.subnets.get? asked = some s →
    (∀ n, Names i.network n → s.parent = some n) → IsFirst Hint.subnet asked hints h →
    h.address ≠ none → ∀ {World : Type} (p : Platform World) (w : World),
      ∃ f, (i.resolve (p.host c) hints).run w = (.error f, w) ∧ f.kind = .notImplemented
  behind : ∀ s a, Resolves c hints i s a → a.address = none ∧
    ∀ before h after, hints = before ++ h :: after → Names h.subnet s.id → h.address ≠ none →
      ∃ b ∈ before, Names b.subnet s.id ∧ b.address = none
  unread : ∀ s a, Resolves c hints i s a → (∃ h ∈ hints, Names h.subnet s.id) →
    ∀ more, Resolves c (hints ++ more) i s a

/-- An address is never assigned. The first hint for a subnet may not ask for one, and those behind
it ask in vain. -/
theorem heedsFirst_of_keyed (hk : c.Keyed) (hints : List Hint) (i : Interface) :
    HeedsFirst c hints i where
  refused asked s h asks found parent first address World p w := by
    obtain ⟨x, hx, hd⟩ := decides_of_run p w c hints i
    have hv := hd.unique (.asked asks (.fixed found parent first address))
    cases x with
    | error f => exact ⟨f, hx, Except.error.inj hv⟩
    | ok _ => cases hv
  behind s a hr := by
    obtain ⟨asked, asks, gets⟩ := (resolves_iff.1 hr).of_ok
    obtain ⟨found, -, -, hnone, hfirst⟩ := gets.of_ok
    refine ⟨hnone, ?_⟩
    rintro before h after rfl hn haddress
    rw [hk.id_eq found] at hn ⊢
    by_cases hb : ∃ b ∈ before, Names b.subnet asked
    · obtain ⟨b, first⟩ := exists_isFirst hb
      exact ⟨b, first.mem, first.names, hfirst b (first.append _)⟩
    · have first : IsFirst Hint.subnet asked (before ++ h :: after) h :=
        ⟨before, after, rfl, hn, fun b hmem hbn => hb ⟨b, hmem, hbn⟩⟩
      exact absurd (hfirst h first) haddress
  unread s a hr hn more := by
    obtain ⟨asked, asks, gets⟩ := (resolves_iff.1 hr).of_ok
    rw [hk.id_eq gets.of_ok.1] at hn
    exact resolves_iff.2 (.asked (asks.append more) (gets.append hn more))

section Overlooked

def oneSubnet : Catalogue where
  networks := .ofList [("net", ⟨"net", "net", .underlay, ∅⟩)]
  subnets := .ofList [("sub", ⟨"sub", some "net", none, ∅⟩)]

def addressed : Hint :=
  { network := some "net", subnet := some "sub", address := some (.v4 10 0 0 5) }

def overlooking : List Hint := [{ subnet := some "sub" }, addressed]

theorem names_net : Names (Interface.onNetwork "net").network "net" :=
  names_iff.2 (by decide +kernel)

theorem names_addressed : Names addressed.subnet "sub" := names_iff.2 (by decide +kernel)

theorem first_addressed : IsFirst Hint.network "net" overlooking addressed :=
  isFirst_network_iff.2 (by decide +kernel)

theorem gets_overlooking (hn : ∀ n, Names i.network n → n = "net") :
    Gets oneSubnet overlooking i "sub" (.ok (⟨"sub", some "net", none, ∅⟩, { subnet := "sub" })) := by
  refine .plain (by decide +kernel) (fun n h => by rw [hn n h]) fun h first => ?_
  have hf : subnetHint? overlooking "sub" = some { subnet := some "sub" } := by decide +kernel
  cases Option.some.inj (hf.symm.trans (isFirst_subnet_iff.1 first))
  exact ⟨rfl, not_names_iff.2 rfl⟩

theorem resolves_overlooking_subnet :
    Resolves oneSubnet overlooking (.onSubnet "sub") ⟨"sub", some "net", none, ∅⟩ { subnet := "sub" } :=
  resolves_iff.2 (.asked (.own (names_iff.2 (by decide +kernel)))
    (gets_overlooking fun n h => absurd h (not_names_iff.2 rfl n)))

theorem resolves_overlooking_network :
    Resolves oneSubnet overlooking (.onNetwork "net") ⟨"sub", some "net", none, ∅⟩ { subnet := "sub" } := by
  have found : oneSubnet.networks.get? "net" = some ⟨"net", "net", .underlay, ∅⟩ := by
    decide +kernel
  refine resolves_iff.2 (.asked (.hinted (not_names_iff.2 rfl) names_net found rfl first_addressed
    names_addressed) (gets_overlooking fun n h => ?_))
  exact Option.some.inj ((names_iff.1 h).symm.trans (names_iff.1 names_net))

theorem heedsFirst_overlooking :
    oneSubnet.Keyed ∧ HeedsFirst oneSubnet overlooking (.onNetwork "net") := by
  have hk : oneSubnet.Keyed := by decide +kernel
  exact ⟨hk, heedsFirst_of_keyed hk overlooking (.onNetwork "net")⟩

/-- An address that is asked for can be left out in silence, on a subnet that is named and also by
the very hint that selects the subnet. -/
theorem not_address_eq_none_of_resolves :
    (¬ ∀ (c : Catalogue) (hints : List Hint) (i : Interface) (s : Subnet) (a : Assignment),
      c.Keyed → Resolves c hints i s a → ∀ h ∈ hints, Names h.subnet s.id → h.address = none) ∧
    ¬ ∀ (c : Catalogue) (hints : List Hint) (i : Interface) (s : Subnet) (a : Assignment)
      (n : String) (h : Hint), c.Keyed → Resolves c hints i s a → (∀ id, ¬ Names i.subnet id) →
        Names i.network n → IsFirst Hint.network n hints h → h.address = none := by
  have hk : oneSubnet.Keyed := by decide +kernel
  constructor
  · intro hunaddressed
    have hopen := hunaddressed _ _ _ _ _ hk resolves_overlooking_subnet addressed first_addressed.mem
      names_addressed
    cases hopen
  · intro hunaddressed
    have hopen := hunaddressed _ _ _ _ _ "net" addressed hk resolves_overlooking_network
      (not_names_iff.2 rfl) names_net first_addressed
    cases hopen

end Overlooked

end Interface

end VirtualInfra.Request
