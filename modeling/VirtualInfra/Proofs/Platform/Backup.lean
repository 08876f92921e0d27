import VirtualInfra.Proofs.Platform.Exclusion
import VirtualInfra.Proofs.Store.Backup

namespace VirtualInfra.Platform.OneNode

open Store

/-- What a node comes to by calls that change its machines, and how it was before and after the last
one of them that succeeded. -/
inductive Course (w₀ : OneNode) : Option (OneNode × OneNode) → OneNode → Prop
  | refl : Course w₀ none w₀
  | later {last : Option (OneNode × OneNode)} {w w' : OneNode} (h : Course w₀ last w)
      (hl : w.Later w') : Course w₀ last w'
  | succeeded {last : Option (OneNode × OneNode)} {w w' : OneNode} {α : Type} {a : α}
      (h : Course w₀ last w) (c : Catalogue) (call : Call α) (hc : call.changes = true)
      (ha : platform.answer c call w = (.ok a, w')) : Course w₀ (some (w, w')) w'
  | failed {last : Option (OneNode × OneNode)} {w w' : OneNode} {α : Type} {f : Fault}
      (h : Course w₀ last w) (c : Catalogue) (call : Call α) (hc : call.changes = true)
      (hf : platform.answer c call w = (.error f, w')) : Course w₀ last w'

variable {w w' w₀ before after : OneNode} {last : Option (OneNode × OneNode)} {saved : List State}

structure Recorded (w : OneNode) (saved : List State) : Prop where
  fits : w.store.Fits
  records : w.store.Records w.disk saved

namespace Recorded

theorem of_isNew (h : w.IsNew) : w.Recorded [] := by
  obtain ⟨base, hv | hs⟩ := h.empty
  · exact ⟨h.fits, .vacant hv⟩
  · exact ⟨h.fits, .shown hs .empty (List.forall_mem_nil _)⟩

theorem later (h : w.Recorded saved) (hl : w.Later w') : w'.Recorded saved := by
  obtain ⟨now, host, process, rfl⟩ := hl
  exact ⟨h.fits, h.records⟩

theorem load (h : w.Recorded saved) : w.load = .ok (latest w.now saved) :=
  h.records.load h.fits w.now

/-- One call more, which saves a state if it succeeds and nothing if it fails. -/
theorem of_answer {α : Type} {call : Call α} {c : Catalogue} (h : w.Recorded saved)
    (hc : call.changes = true) {x : Except Fault α} (hx : platform.answer c call w = (x, w')) :
    (∃ f, x = .error f) ∧ w'.Recorded saved ∨
      ∃ a st, x = .ok a ∧ w'.Recorded (st :: saved) := by
  obtain ⟨g, drawn, hanswer, hversion⟩ := exists_update_of_changes c hc w
  rw [hanswer] at hx
  cases hg : g (latest w.now saved) with
  | error p =>
      obtain ⟨d, hd, hr⟩ := h.records.update_of_error h.fits w.holder hg
      rw [update_of_store hd] at hx
      cases hx
      exact .inl ⟨⟨_, rfl⟩, h.fits, hr⟩
  | ok y =>
      obtain ⟨a, st⟩ := y
      have hv : st.version ≤ currentVersion :=
        hversion _ _ _ hg ▸ version_latest h.records.versions w.now
      obtain ⟨d, hd, hr⟩ := h.records.update_of_ok h.fits w.holder hg hv
      rw [update_of_store hd] at hx
      cases hx
      exact .inr ⟨a, st, rfl, h.fits, hr⟩

end Recorded

def Ends : Option (OneNode × OneNode) → List State → Prop
  | none, saved => saved = []
  | some (before, after), saved =>
    ∃ st rest, saved = st :: rest ∧ before.load = .ok (latest before.now rest) ∧ after.load = .ok st

theorem recorded_of_course (h₀ : w₀.IsNew) (h : Course w₀ last w) :
    ∃ saved, w.Recorded saved ∧ Ends last saved := by
  induction h with
  | refl => exact ⟨[], .of_isNew h₀, rfl⟩
  | later _ hl ih =>
      obtain ⟨saved, hr, hends⟩ := ih
      exact ⟨saved, hr.later hl, hends⟩
  | succeeded _ c call hc ha ih =>
      obtain ⟨saved, hr, -⟩ := ih
      rcases hr.of_answer hc ha with ⟨⟨_, hx⟩, -⟩ | ⟨_, st, -, hr'⟩
      · cases hx
      · exact ⟨st :: saved, hr', st, saved, rfl, hr.load, hr'.load⟩
  | failed _ c call hc hf ih =>
      obtain ⟨saved, hr, hends⟩ := ih
      rcases hr.of_answer hc hf with ⟨-, hr'⟩ | ⟨_, _, hx, -⟩
      · exact ⟨saved, hr', hends⟩
      · cases hx

/-- The state file holds what the last call that succeeded made, and without it the machines are
loaded that the call found. -/
structure OneStepBehind (w₀ before after w : OneNode) : Prop where
  state : ∃ st, after.load = .ok st ∧ w.load = .ok st ∧
    w.disk.readText w.store.stateFile = .ok st.toJson.pretty
  staging : w.disk.has w.store.stagingFile = false
  lock : w.disk.has w.store.lockFile = false
  restored : ∃ st d, before.load = .ok st ∧ w.disk.remove w.store.stateFile = .ok d ∧
    ∀ now, ∃ st', w.store.load now d = .ok st' ∧ st'.machines = st.machines
  first : Course w₀ none before → ∃ st, before.load = .ok st ∧ st.machines = ∅

theorem oneStepBehind_of_course (h₀ : w₀.IsNew) (h : Course w₀ (some (before, after)) w) :
    OneStepBehind w₀ before after w := by
  obtain ⟨_, hr, st, rest, rfl, hbefore, hafter⟩ := recorded_of_course h₀ h
  obtain ⟨d, hd, hload⟩ := hr.records.load_of_remove hr.fits
  constructor
  · exact ⟨st, hafter, hr.load, hr.records.readText_stateFile hr.fits⟩
  · exact hr.records.has_stagingFile hr.fits
  · exact hr.records.has_lockFile hr.fits
  · exact ⟨_, d, hbefore, hd, fun now => ⟨_, hload now, machines_latest rest now before.now⟩⟩
  · intro hnone
    obtain ⟨_, hr', rfl⟩ := recorded_of_course h₀ hnone
    exact ⟨_, hr'.load, rfl⟩

/-- A machine is made and deleted, and after each of these calls one fails. -/
theorem oneStepBehind_inhabited : blank.IsNew ∧ ∃ before after w,
    Course blank (some (before, after)) w ∧ OneStepBehind blank before after w ∧
      ∃ st m, before.load = .ok st ∧ st.machines.get? single.name = some m := by
  have hmissing (m : Stored) : (Table.insert ∅ single.name m).get? "other" = none := by
    rw [Table.get?_insert, if_neg (by decide)]
    rfl
  have hgone (t : Table Stored) : (t.erase single.name).get? single.name = none := by
    rw [Table.get?_erase, if_pos rfl]
  obtain ⟨_, hmade, h₁⟩ := create_of_free isNew_blank.holds (clash?_specs_empty single)
  obtain ⟨_, hmissed, h₂⟩ := delete_of_none h₁ (hmissing _)
  obtain ⟨_, hdeleted, h₃⟩ := delete_of_some h₂ (Table.get?_insert_self ..)
  obtain ⟨_, hrepeated, -⟩ := delete_of_none h₃ (hgone _)
  have hfound := Course.failed (.succeeded .refl {} (.create single) rfl hmade) {}
    (.delete "other") rfl hmissed
  have hcourse := Course.failed (.succeeded hfound {} (.delete single.name) rfl hdeleted) {}
    (.delete single.name) rfl hrepeated
  obtain ⟨st, hst, -, hmachines⟩ := h₂.load
  exact ⟨isNew_blank, _, _, _, hcourse, oneStepBehind_of_course isNew_blank hcourse, st, _, hst,
    hmachines ▸ Table.get?_insert_self ..⟩

end VirtualInfra.Platform.OneNode
