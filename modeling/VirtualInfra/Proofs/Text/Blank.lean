import VirtualInfra.Proofs.Text.Split
import VirtualInfra.Text.Blank

namespace VirtualInfra.Text

theorem toNat_of_isAlphanum {c : Char} (h : c.isAlphanum = true) :
    ((65 ≤ c.toNat ∧ c.toNat ≤ 90) ∨ 97 ≤ c.toNat ∧ c.toNat ≤ 122) ∨
      48 ≤ c.toNat ∧ c.toNat ≤ 57 := by
  rcases Bool.or_eq_true_iff.1 h with halpha | hdigit
  · rcases Bool.or_eq_true_iff.1 halpha with hupper | hlower
    · exact .inl (.inl (of_decide_eq_true hupper))
    · obtain ⟨ha, hz⟩ := Bool.and_eq_true_iff.1 hlower
      exact .inl (.inr ⟨of_decide_eq_true ha, of_decide_eq_true hz⟩)
  · obtain ⟨h0, h9⟩ := Bool.and_eq_true_iff.1 hdigit
    exact .inr ⟨of_decide_eq_true h0, of_decide_eq_true h9⟩

theorem isBlank_of_isAlphanum {c : Char} (h : c.isAlphanum = true) : isBlank c = false := by
  have hc := toNat_of_isAlphanum h
  simp only [isBlank, blankRanges, List.any_cons, List.any_nil]
  simp
  omega

theorem isBlank_of_isDigit {c : Char} (h : c.isDigit = true) : isBlank c = false :=
  isBlank_of_isAlphanum (Bool.or_eq_true_iff.2 (.inr h))

section Strip

variable {p : Char → Bool} {before after : List Char}

theorem strip_eq_rdropWhile (p : Char → Bool) (cs : List Char) :
    strip p cs = (cs.dropWhile p).rdropWhile p := rfl

theorem strip_append (hb : ∀ c ∈ before, p c = true) (ha : ∀ c ∈ after, p c = true)
    (cs : List Char) : strip p (before ++ cs ++ after) = strip p cs := by
  rw [strip_eq_rdropWhile, strip_eq_rdropWhile, List.append_assoc, List.dropWhile_append_of_pos hb,
    List.dropWhile_append]
  split
  · next hcs => rw [List.dropWhile_eq_nil_iff.2 ha, List.isEmpty_iff.1 hcs]
  · exact rdropWhile_append_of_pos ha _

def Around (p : Char → Bool) (core cs : List Char) : Prop :=
  ∃ before after, (∀ c ∈ before, p c = true) ∧ (∀ c ∈ after, p c = true) ∧
    before ++ core ++ after = cs

variable {core cs : List Char}

theorem Around.refl (p : Char → Bool) (cs : List Char) : Around p cs cs :=
  ⟨[], [], nofun, nofun, List.append_nil cs⟩

theorem Around.strip_eq (h : Around p core cs) : strip p cs = strip p core := by
  obtain ⟨before, after, hb, ha, rfl⟩ := h
  exact strip_append hb ha core

theorem notMem_of_all {c : Char} (hc : p c = false) (h : ∀ c ∈ cs, p c = true) : c ∉ cs :=
  fun hmem => Bool.false_ne_true (hc.symm.trans (h c hmem))

theorem Around.notMem (h : Around p core cs) {c : Char} (hc : p c = false) (hcore : c ∉ core) :
    c ∉ cs := by
  obtain ⟨before, after, hb, ha, rfl⟩ := h
  rw [List.mem_append, List.mem_append, not_or, not_or]
  exact ⟨⟨notMem_of_all hc hb, hcore⟩, notMem_of_all hc ha⟩

theorem around_strip (p : Char → Bool) (cs : List Char) : Around p (strip p cs) cs := by
  refine ⟨cs.takeWhile p, ((cs.dropWhile p).reverse.takeWhile p).reverse,
    fun c hc => List.mem_takeWhile_imp hc,
    fun c hc => List.mem_takeWhile_imp (List.mem_reverse.1 hc), ?_⟩
  rw [strip, List.append_assoc, ← List.reverse_append, List.takeWhile_append_dropWhile,
    List.reverse_reverse, List.takeWhile_append_dropWhile]

theorem around_rdropWhile (p : Char → Bool) (cs : List Char) : Around p (cs.rdropWhile p) cs := by
  refine ⟨[], (cs.reverse.takeWhile p).reverse, nofun,
    fun c hc => List.mem_takeWhile_imp (List.mem_reverse.1 hc), ?_⟩
  rw [List.nil_append, List.rdropWhile, ← List.reverse_append, List.takeWhile_append_dropWhile,
    List.reverse_reverse]

theorem strip_strip (p : Char → Bool) (cs : List Char) : strip p (strip p cs) = strip p cs :=
  (around_strip p cs).strip_eq.symm

theorem strip_rdropWhile (p : Char → Bool) (cs : List Char) :
    strip p (cs.rdropWhile p) = strip p cs :=
  (around_rdropWhile p cs).strip_eq.symm

theorem strip_eq_self {cs : List Char} (h : ∀ c ∈ cs, p c = false) : strip p cs = cs := by
  have hdrop : ∀ ds : List Char, (∀ c ∈ ds, p c = false) → ds.dropWhile p = ds := by
    intro ds hds
    refine List.dropWhile_eq_self_iff.2 fun hlen hp => ?_
    rw [hds _ (List.getElem_mem hlen)] at hp
    cases hp
  rw [strip, hdrop cs h, hdrop _ fun c hc => h c (List.mem_reverse.1 hc), List.reverse_reverse]

/-- Of two texts with a mark between them that stays, each is stripped at its outer end. -/
theorem strip_append_cons {c : Char} (hc : p c = false) (front back : List Char) :
    strip p (front ++ c :: back) = front.dropWhile p ++ c :: back.rdropWhile p := by
  rw [strip_eq_rdropWhile, dropWhile_append_cons hc, rdropWhile_append_cons hc]

theorem strip_dropWhile (p : Char → Bool) (cs : List Char) :
    strip p (cs.dropWhile p) = strip p cs := by
  rw [strip_eq_rdropWhile, strip_eq_rdropWhile, List.dropWhile_idempotent]

end Strip

variable {before after : String}

/-- Nothing of a text counts but what is left of it when it is trimmed. -/
theorem nonBlank?_congr {s t : String} (h : strip isBlank s.toList = strip isBlank t.toList) :
    nonBlank? s = nonBlank? t := by
  have hblank : isBlankText s = isBlankText t := by
    rw [isBlankText, isBlankText, Bool.eq_iff_iff, ← strip_eq_nil_iff, ← strip_eq_nil_iff, h]
  rw [nonBlank?, nonBlank?, hblank, trim, trim, h]

theorem nonBlank?_eq_self {s : String} (hne : s.toList ≠ [])
    (h : ∀ c ∈ s.toList, isBlank c = false) : nonBlank? s = some s := by
  have hblank : isBlankText s = false := by
    obtain ⟨c, cs, hs⟩ := List.exists_cons_of_ne_nil hne
    rw [isBlankText, hs, List.all_cons, h c (hs ▸ List.mem_cons_self), Bool.false_and]
  rw [nonBlank?, hblank, if_neg Bool.false_ne_true, trim, strip_eq_self h, String.ofList_toList]

theorem trim_trim (s : String) : trim (trim s) = trim s := by
  rw [trim, trim, String.toList_ofList, strip_strip]

theorem nonBlank?_append (hb : isBlankText before = true) (ha : isBlankText after = true)
    (s : String) : nonBlank? (before ++ s ++ after) = nonBlank? s := by
  refine nonBlank?_congr ?_
  rw [String.toList_append, String.toList_append]
  exact strip_append (List.all_eq_true.1 hb) (List.all_eq_true.1 ha) s.toList

end VirtualInfra.Text
