import Mathlib.Data.List.Forall2

theorem List.exists_forall₂_iff {α β : Type} {R : α → β → Prop} {as : List α} :
    (∃ bs, List.Forall₂ R as bs) ↔ ∀ a ∈ as, ∃ b, R a b := by
  induction as with
  | nil => exact ⟨fun _ _ => nofun, fun _ => ⟨[], .nil⟩⟩
  | cons a as ih =>
      rw [List.forall_mem_cons, ← ih]
      constructor
      · rintro ⟨_, h⟩
        cases h with
        | cons hb hbs => exact ⟨⟨_, hb⟩, _, hbs⟩
      · rintro ⟨⟨b, hb⟩, bs, hbs⟩
        exact ⟨b :: bs, .cons hb hbs⟩

namespace Except

variable {ε α β : Type}

theorem ok_bind (a : α) (f : α → Except ε β) : .ok a >>= f = f a := rfl

theorem bind_eq_ok_iff {x : Except ε α} {f : α → Except ε β} {b : β} :
    x >>= f = .ok b ↔ ∃ a, x = .ok a ∧ f a = .ok b := by
  cases x with
  | error e =>
      constructor
      · intro h
        cases h
      · rintro ⟨a, h, -⟩
        cases h
  | ok a =>
      constructor
      · intro h
        exact ⟨a, rfl, h⟩
      · rintro ⟨a', h, hf⟩
        cases h
        exact hf

theorem map_eq_ok_iff {x : Except ε α} {f : α → β} {b : β} :
    x.map f = .ok b ↔ ∃ a, x = .ok a ∧ f a = b := by
  cases x <;> simp [Except.map]

@[simp] theorem pure_eq_ok_iff {a b : α} : (pure a : Except ε α) = .ok b ↔ a = b :=
  ⟨fun h => Except.ok.inj h, fun h => congrArg Except.ok h⟩

/-- What every step keeps, a run of steps that all succeed keeps. -/
theorem of_foldlM {f : β → α → Except ε β} {P : β → Prop} {as : List α}
    (hf : ∀ b, ∀ a ∈ as, ∀ b', f b a = .ok b' → P b → P b') {b b' : β}
    (h : as.foldlM f b = .ok b') (hb : P b) : P b' := by
  induction as generalizing b with
  | nil =>
      cases h
      exact hb
  | cons a as ih =>
      obtain ⟨b₁, hb₁, h⟩ := bind_eq_ok_iff.1 h
      exact ih (fun b a ha => hf b a (List.mem_cons_of_mem _ ha)) h
        (hf b a List.mem_cons_self b₁ hb₁ hb)

theorem foldlM_append_cons_eq_ok_iff {f : β → α → Except ε β} {as bs : List α} {a : α} {b b' : β} :
    (as ++ a :: bs).foldlM f b = .ok b' ↔ ∃ b₁, as.foldlM f b = .ok b₁ ∧
      ∃ b₂, f b₁ a = .ok b₂ ∧ bs.foldlM f b₂ = .ok b' := by
  simp only [List.foldlM_append, List.foldlM_cons, bind_eq_ok_iff]

/-- A run whose steps are told by a relation leads where the steps that are told lead. -/
theorem foldlM_eq_ok_iff_of_forall₂ {γ : Type} {f : β → α → Except ε β} {R : α → γ → Prop}
    {g : β → γ → β} (hf : ∀ b a b', f b a = .ok b' ↔ ∃ c, R a c ∧ g b c = b') {as : List α}
    {b b' : β} : as.foldlM f b = .ok b' ↔ ∃ cs, List.Forall₂ R as cs ∧ cs.foldl g b = b' := by
  induction as generalizing b with
  | nil =>
      rw [List.foldlM_nil, pure_eq_ok_iff]
      exact ⟨fun h => ⟨[], .nil, h⟩, fun ⟨_, hcs, h⟩ => by cases hcs; exact h⟩
  | cons a as ih =>
      rw [List.foldlM_cons, bind_eq_ok_iff]
      constructor
      · rintro ⟨b₁, hb₁, h⟩
        obtain ⟨c, hc, rfl⟩ := (hf b a b₁).1 hb₁
        obtain ⟨cs, hcs, h⟩ := ih.1 h
        exact ⟨c :: cs, .cons hc hcs, h⟩
      · rintro ⟨_, hcs, h⟩
        cases hcs with
        | cons hc hcs => exact ⟨_, (hf b a _).2 ⟨_, hc, rfl⟩, ih.2 ⟨_, hcs, h⟩⟩

def Commutes (f : β → α → Except ε β) (x y : α) : Prop :=
  ∀ b b', f b x >>= (f · y) = .ok b' ↔ f b y >>= (f · x) = .ok b'

theorem Commutes.symm {f : β → α → Except ε β} {x y : α} (h : Commutes f x y) : Commutes f y x :=
  fun b b' => (h b b').symm

/-- A run whose steps commute leads to the same result in any order, if to any. -/
theorem foldlM_eq_ok_iff_of_perm {f : β → α → Except ε β} {as bs : List α} (h : as.Perm bs)
    (hf : as.Pairwise (Commutes f)) {b b' : β} :
    as.foldlM f b = .ok b' ↔ bs.foldlM f b = .ok b' := by
  induction h generalizing b with
  | nil => exact .rfl
  | cons x _ ih =>
      rw [List.foldlM_cons, List.foldlM_cons, bind_eq_ok_iff, bind_eq_ok_iff]
      exact exists_congr fun _ => and_congr_right fun _ => ih (List.pairwise_cons.1 hf).2
  | swap x y as =>
      have hyx : Commutes f y x := (List.pairwise_cons.1 hf).1 x List.mem_cons_self
      simp only [List.foldlM_cons, ← bind_assoc]
      rw [bind_eq_ok_iff, bind_eq_ok_iff]
      exact exists_congr fun b₁ => and_congr_left fun _ => hyx b b₁
  | trans h _ ih ih' => exact (ih hf).trans (ih' (h.pairwise hf .symm))

end Except
