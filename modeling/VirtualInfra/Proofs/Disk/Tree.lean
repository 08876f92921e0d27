import Mathlib.Data.List.Induction
import VirtualInfra.Proofs.Disk.Effect

namespace VirtualInfra.Disk

open Way

variable {d : Disk} {w : Way} {p q : Path} {name : String} {names : List String}

/-- Every entry stands in a directory, under a name that is not too long. -/
def IsTree (d : Disk) : Prop :=
  ∀ p name, d.get? (p ++ [name]) ≠ none →
    d.get? p = some .directory ∧ name.utf8ByteSize ≤ maxNameSize

theorem isTree_of_entries (h : ∀ e ∈ d.entries, d.get? e.1.dropLast = some .directory ∧
    ∀ name ∈ e.1.getLast?, name.utf8ByteSize ≤ maxNameSize) : d.IsTree := by
  intro p name hp
  have hlookup : d.entries.lookup (p ++ [name]) ≠ none := by
    intro hnone
    apply hp
    rw [get?, if_neg (by simp), hnone]
  obtain ⟨e, he⟩ := Option.ne_none_iff_exists'.1 hlookup
  obtain ⟨before, after, hentries, -⟩ := List.lookup_eq_some_iff.1 he
  obtain ⟨hdir, hshort⟩ := h (p ++ [name], e) (by rw [hentries]; simp)
  rw [List.dropLast_concat] at hdir
  exact ⟨hdir, hshort name (by simp)⟩

/-- Wherever names lead back, they lead back from a directory that is there. -/
def Retraces (d : Disk) (p : Path) (names : List String) : Prop :=
  ∀ front, front ++ [".."] <+: names →
    ∃ q, front.foldlM d.step p = .ok q ∧ d.get? q = some .directory

theorem retraces_of_forward (h : ".." ∉ names) : d.Retraces p names :=
  fun _ hf => absurd (hf.subset List.mem_concat_self) h

namespace Retraces

theorem of_append (h : d.Retraces p (names ++ [name])) : d.Retraces p names :=
  fun front hf => h front (hf.trans (List.prefix_append _ _))

theorem back (h : d.Retraces p (names ++ [".."])) :
    ∃ q, names.foldlM d.step p = .ok q ∧ d.get? q = some .directory :=
  h names List.prefix_rfl

end Retraces

theorem get?_of_passed (h : names.foldlM d.step p = .ok q) (hq : d.get? q = some .directory)
    {r : Path} (hr : r ∈ passed p names) : d.get? r = some .directory := by
  induction names generalizing p with
  | nil =>
      cases h
      rw [List.mem_singleton.1 hr]
      exact hq
  | cons name names ih =>
      rw [List.foldlM_cons] at h
      obtain ⟨p', hstep, h⟩ := Except.bind_eq_ok_iff.1 h
      obtain ⟨hd, -, rfl⟩ := step_eq_ok_iff.1 hstep
      rcases List.mem_cons.1 hr with rfl | hr
      · exact hd
      · exact ih h hr

theorem foldl_advance_concat (hback : name ≠ "..") :
    (names ++ [name]).foldl advance p = names.foldl advance p ++ [name] := by
  rw [List.foldl_append]
  exact if_neg hback

theorem foldlM_step_of_tree (ht : d.IsTree) (hr : d.Retraces p names)
    (h : d.get? (names.foldl advance p ++ [name]) ≠ none) :
    names.foldlM d.step p = .ok (names.foldl advance p) := by
  induction names using List.reverseRecOn generalizing name with
  | nil => rfl
  | append_singleton front last ih =>
      rw [List.foldlM_append]
      by_cases hback : last = ".."
      · subst hback
        obtain ⟨q, hq, hd⟩ := hr.back
        obtain rfl := eq_foldl_of_foldlM_step hq
        rw [hq, Except.ok_bind, List.foldlM_cons,
          step_eq_ok_iff.2 ⟨hd, by decide, rfl⟩, List.foldl_append]
        rfl
      · rw [foldl_advance_concat hback] at h ⊢
        have hlast : d.get? (front.foldl advance p ++ [last]) ≠ none := by
          rw [(ht _ _ h).1]
          nofun
        obtain ⟨hd, hshort⟩ := ht _ _ hlast
        rw [ih hr.of_append hlast, Except.ok_bind, List.foldlM_cons,
          step_eq_ok_iff.2 ⟨hd, hshort, (if_neg hback).symm⟩]
        rfl

theorem prefix_or_directory_of_passed (hr : d.Retraces p names) (hq : q ∈ passed p names) :
    q <+: names.foldl advance p ∨ d.get? q = some .directory := by
  induction names using List.reverseRecOn with
  | nil =>
      rw [List.mem_singleton.1 hq]
      exact .inl List.prefix_rfl
  | append_singleton front last ih =>
      obtain ⟨passing, hp, rfl⟩ := mem_passed_iff.1 hq
      rcases List.prefix_concat_iff.1 hp with rfl | hp
      · exact .inl List.prefix_rfl
      have hpassed : passing.foldl advance p ∈ passed p front := mem_passed_iff.2 ⟨passing, hp, rfl⟩
      by_cases hback : last = ".."
      · subst hback
        obtain ⟨r, hlead, hd⟩ := hr.back
        exact .inr (get?_of_passed hlead hd hpassed)
      · rw [foldl_advance_concat hback]
        exact (ih hr.of_append hpassed).imp_left fun h => h.trans (List.prefix_append _ _)

end VirtualInfra.Disk
