import VirtualInfra.Proofs.Catalogue.Acceptance
import VirtualInfra.Proofs.Resolution.Decision
import VirtualInfra.Proofs.Text.Blank

namespace VirtualInfra.Request

open Text

variable {field : Option String} {id n text : String}

theorem Names.trimmed (h : Names field id) : trim id = id := by
  obtain ⟨text, -, rfl, -⟩ := h
  exact trim_trim text

theorem names_some_iff : Names (some text) id ↔ trim text = id ∧ isBlankText text = false := by
  constructor
  · rintro ⟨_, ⟨⟩, rfl, hne⟩
    exact ⟨rfl, Bool.eq_false_iff.2 fun hb => hne (trim_eq_empty_iff.2 hb)⟩
  · rintro ⟨rfl, hb⟩
    refine ⟨text, rfl, rfl, fun he => ?_⟩
    rw [trim_eq_empty_iff.1 he] at hb
    cases hb

namespace Interface

variable {c : Catalogue} {s s' : Subnet} {a : Assignment} {i : Interface} {hints : List Hint}

theorem Asks.trimmed (h : Asks c hints i (.ok id)) : trim id = id := by
  cases h with
  | own subnet => exact subnet.trimmed
  | hinted _ _ _ _ _ names => exact names.trimmed

/-- How a subnet is reached by the ids that it has in the catalogue: when there are no blanks around
them. With blanks around its own id it is reached by nothing, and another subnet may be got in its
place; with blanks around the id of its network it is reached only when no network is named. -/
structure Reachable (c : Catalogue) (s : Subnet) : Prop where
  own : Resolves c [] ⟨s.parent, some s.id⟩ s { subnet := s.id } ↔
    trim s.id = s.id ∧ ∀ n ∈ s.parent, trim n = n
  lost : trim s.id ≠ s.id → ∀ hints i a, ¬ Resolves c hints i s a
  mistaken : ∀ hints network s' a, Resolves c hints ⟨network, some s.id⟩ s' a → s'.id = trim s.id
  alone : ∀ n, s.parent = some n → trim n ≠ n →
    ∀ hints i a, Resolves c hints i s a → ∀ n', ¬ Names i.network n'

theorem Resolves.placed (h : Resolves c hints i s a) : Placed c hints i s a :=
  (resolves_iff.1 h).placed

theorem trim_id_of_resolves (hk : c.Keyed) (h : Resolves c hints i s a) : trim s.id = s.id := by
  obtain ⟨id, asks, -, hid⟩ := h.placed.known
  rw [hid hk]
  exact asks.trimmed

theorem trim_parent_of_resolves (h : Resolves c hints i s a) (hn : s.parent = some n) {n' : String}
    (network : Names i.network n') : trim n = n := by
  have hparent := h.placed.parent n' network
  rw [hn, Option.some.injEq] at hparent
  rw [hparent]
  exact network.trimmed

theorem resolves_own (found : c.subnets.get? s.id = some s) (hb : isBlankText s.id = false)
    (hid : trim s.id = s.id) (hparent : ∀ n ∈ s.parent, trim n = n) :
    Resolves c [] ⟨s.parent, some s.id⟩ s { subnet := s.id } := by
  refine resolves_iff.2 (.asked (.own (names_some_iff.2 ⟨hid, hb⟩)) (.plain found ?_ ?_))
  · rintro n ⟨text, htext, rfl, -⟩
    rw [hparent text htext]
    exact htext
  · intro h first
    cases first.mem

theorem reachable_of_filed (hf : c.Filed) (hu : c.Unambiguous)
    (hs : c.subnets.get? id = some s) : Reachable c s := by
  have hk : c.Keyed := by
    rintro ⟨id, s⟩ he
    have hs := Table.get?_eq_some_iff_mem.2 he
    exact (hf .subnet id (.subnet s) (congrArg (Option.map _) hs)).2.1
  obtain ⟨-, rfl, hb⟩ := hf .subnet id (.subnet s) (congrArg (Option.map _) hs)
  have hbn : ∀ n, s.parent = some n → isBlankText n = false := by
    intro n hn
    obtain ⟨net, hnet⟩ := hu.parents _ s n hs hn
    exact (hf .network n (.network net) (congrArg (Option.map _) hnet)).2.2
  constructor
  · constructor
    · intro h
      refine ⟨trim_id_of_resolves hk h, fun n hn => ?_⟩
      have network : Names s.parent (trim n) := by
        rw [hn]
        exact names_some_iff.2 ⟨rfl, hbn n hn⟩
      exact trim_parent_of_resolves h hn network
    · rintro ⟨hid, hparent⟩
      exact resolves_own hs hb hid hparent
  · intro hne hints i a h
    exact hne (trim_id_of_resolves hk h)
  · intro hints network s' a h
    exact hk.id_eq (h.placed.own _ (names_some_iff.2 ⟨rfl, hb⟩))
  · intro n hn hne hints i a h n' network
    exact hne (trim_parent_of_resolves h hn network)

theorem reachable_of_ofText {text : String} (ht : Catalogue.ofText text = .ok c)
    (hs : c.subnets.get? id = some s) : Reachable c s := by
  obtain ⟨hf, hv⟩ := Catalogue.of_ofText ht
  exact reachable_of_filed hf (Catalogue.validate_eq_ok_iff.1 hv) hs

section Padded

def paddedText : String :=
  "network \" net \" type=underlay\nsubnet sub network=\" net \"\nsubnet \" other \"\nsubnet other"

def padded : Catalogue where
  networks := .ofList [(" net ", ⟨" net ", " net ", .underlay, ∅⟩)]
  subnets := .ofList [
    ("sub", ⟨"sub", some " net ", none, ∅⟩),
    (" other ", ⟨" other ", none, none, ∅⟩),
    ("other", ⟨"other", none, none, ∅⟩)]

theorem ofText_paddedText : Catalogue.ofText paddedText = .ok padded := by decide +kernel

theorem get?_padded : padded.subnets.get? " other " = some ⟨" other ", none, none, ∅⟩ := by
  decide +kernel

theorem reachable_padded : Catalogue.ofText paddedText = .ok padded ∧
    padded.subnets.get? " other " = some ⟨" other ", none, none, ∅⟩ ∧
      Reachable padded ⟨" other ", none, none, ∅⟩ :=
  ⟨ofText_paddedText, get?_padded, reachable_of_ofText ofText_paddedText get?_padded⟩

/-- The subnet with blanks around its id is not found under this id, although it is kept there. -/
theorem not_resolves_own : ¬ ∀ (text : String) (c : Catalogue) (id : String) (s : Subnet),
    Catalogue.ofText text = .ok c → c.subnets.get? id = some s →
      Resolves c [] ⟨s.parent, some s.id⟩ s { subnet := s.id } := by
  intro hall
  have hown := hall _ _ _ _ ofText_paddedText get?_padded
  have hk : padded.Keyed := by decide +kernel
  have htrim : trim " other " = "other" := by decide +kernel
  have heq := trim_id_of_resolves hk hown
  rw [htrim] at heq
  exact absurd heq (by decide)

end Padded

end Interface

end VirtualInfra.Request
