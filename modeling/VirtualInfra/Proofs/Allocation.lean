import VirtualInfra.Proofs.Projection
import VirtualInfra.Proofs.Undo
import VirtualInfra.Service

namespace VirtualInfra

variable {World : Type}

/-- The creations and deletions that were asked for, and what was answered. With the answer to a
creation stands whether the caller had cancelled by then. -/
structure Journal where
  creations : List Machine.Spec := []
  created : List (Except Fault Machine.Created × Bool) := []
  deletions : List String := []
  deleted : List (Except Fault Unit) := []

namespace Journal

def ask {α : Type} (j : Journal) : Call α → Journal
  | .create spec => { j with creations := j.creations ++ [spec] }
  | .delete name => { j with deletions := j.deletions ++ [name] }
  | _ => j

def note {α : Type} (j : Journal) (cancelled : Bool) : Call α → Except Fault α → Journal
  | .create _, x => { j with created := j.created ++ [(x, cancelled)] }
  | .delete _, x => { j with deleted := j.deleted ++ [x] }
  | _, _ => j

end Journal

structure Watched (World : Type) where
  world : World
  journal : Journal := {}

namespace Host

variable (host : Host World)

def watched : Host (Watched World) where
  cancelled w := host.cancelled w.world
  issue c w := ⟨host.issue c w.world, w.journal.ask c⟩
  answer c w :=
    ((host.answer c w.world).1, {
      world := (host.answer c w.world).2
      journal := w.journal.note (host.cancelled (host.answer c w.world).2) c
        (host.answer c w.world).1 })

theorem watched_covers : host.watched.Covers Watched.world host where
  cancelled _ := rfl
  issue _ _ := rfl
  answer _ _ := rfl

theorem watched_spares {α : Type} {c : Call α} (h : c.changes = false) :
    host.watched.Spares Watched.journal c where
  issue w := by cases c <;> first | rfl | cases h
  answer w := by cases c <;> first | rfl | cases h

end Host

namespace Service

variable {host : Host World} {d : Defaults} {r : Request}

theorem run_abort {α : Type} (stage : String) (undo : Act World Unit)
    (fault : Undo.Report → Fault) (w : World) :
    (abort (α := α) (Undo.Log.empty.record stage undo) fault).run w =
      (.error (fault (.single stage (undo.run w).1)), (undo.run w).2) := by
  unfold abort
  simp only [Act.run, Undo.Log.unwind_record_empty]

theorem maps_abort {World' α : Type} {π : World' → World} {undo' : Act World' Unit}
    {undo : Act World Unit} (h : Act.Maps π undo' undo) (stage : String)
    (fault : Undo.Report → Fault) :
    Act.Maps π (abort (α := α) (Undo.Log.empty.record stage undo') fault)
      (abort (Undo.Log.empty.record stage undo) fault) := by
  intro w
  rw [run_abort, run_abort, h w]

theorem maps_allocate {World' : Type} {π : World' → World} {host' : Host World'}
    (h : host'.Covers π host) (d : Defaults) (r : Request) :
    Act.Maps π (allocate host' d r) (allocate host d r) := by
  rw [allocate]
  refine (Request.maps_compile h d r).bind fun spec => h.isCancelled.bind fun seen => ?_
  have hcreate := (h.call (.create spec)).within s!"create VM {spec.name}"
  cases seen with
  | true => exact .throw _
  | false =>
      refine hcreate.bind fun created => h.isCancelled.bind fun late => ?_
      have hdelete := h.call (.delete created.name)
      cases late with
      | true =>
          simp only [if_true]
          exact maps_abort hdelete _ _
      | false =>
          simp only [Bool.false_eq_true, if_false]
          rcases created.project spec with f | resource
          · exact maps_abort hdelete _ _
          · exact .pure _

inductive Ends (host : Host World) (d : Defaults) (r : Request) (w : World) :
    Except Fault Resource → World → Prop
  | uncompiled {f : Fault} {v : World} (compiled : (r.compile host d).run w = (.error f, v)) :
      Ends host d r w (.error f) v
  | cancelled {spec : Machine.Spec} {v : World}
      (compiled : (r.compile host d).run w = (.ok spec, v)) (seen : host.cancelled v = true) :
      Ends host d r w (.error (Fault.Cause.cancelled s!"create VM {spec.name}")) v
  | refused {spec : Machine.Spec} {f : Fault} {v v' : World}
      (compiled : (r.compile host d).run w = (.ok spec, v)) (seen : host.cancelled v = false)
      (created : (host.call (.create spec)).run v = (.error f, v')) :
      Ends host d r w (.error (f.within s!"create VM {spec.name}")) v'
  | made {spec : Machine.Spec} {c : Machine.Created} {resource : Resource} {v v' : World}
      (compiled : (r.compile host d).run w = (.ok spec, v)) (seen : host.cancelled v = false)
      (created : (host.call (.create spec)).run v = (.ok c, v'))
      (late : host.cancelled v' = false) (derived : c.project spec = .ok resource) :
      Ends host d r w (.ok resource) v'
  | withdrawn {spec : Machine.Spec} {c : Machine.Created} {x : Except Fault Unit}
      {v v' v'' : World} (compiled : (r.compile host d).run w = (.ok spec, v))
      (seen : host.cancelled v = false)
      (created : (host.call (.create spec)).run v = (.ok c, v'))
      (late : host.cancelled v' = true)
      (deleted : (host.call (.delete c.name)).run v' = (x, v'')) :
      Ends host d r w
        (.error ((Undo.Report.single s!"create VM {c.name}" x).cancelled s!"create VM {c.name}")) v''
  | underivable {spec : Machine.Spec} {c : Machine.Created} {f : Fault} {x : Except Fault Unit}
      {v v' v'' : World} (compiled : (r.compile host d).run w = (.ok spec, v))
      (seen : host.cancelled v = false)
      (created : (host.call (.create spec)).run v = (.ok c, v'))
      (late : host.cancelled v' = false) (derived : c.project spec = .error f)
      (deleted : (host.call (.delete c.name)).run v' = (x, v'')) :
      Ends host d r w (.error ((Undo.Report.single s!"create VM {c.name}" x).fault
        (f.within s!"derive response for VM {c.name}"))) v''

theorem ends_allocate (host : Host World) (d : Defaults) (r : Request) (w : World) :
    Ends host d r w ((allocate host d r).run w).1 ((allocate host d r).run w).2 := by
  rw [allocate]
  rcases compiled : (r.compile host d).run w with ⟨f | spec, v⟩
  · rw [Act.run_bind_of_error compiled]
    exact .uncompiled compiled
  rw [Act.run_bind_of_ok compiled, Act.run_bind_of_ok (Host.run_isCancelled v)]
  cases seen : host.cancelled v with
  | true => exact .cancelled compiled seen
  | false =>
      simp only [Bool.false_eq_true, if_false]
      rcases created : (host.call (.create spec)).run v with ⟨x, v'⟩
      have hstage : ((host.call (.create spec)).within s!"create VM {spec.name}").run v =
          (Fault.mark s!"create VM {spec.name}" x, v') := by
        rw [Act.run_within, created]
      cases x with
      | error f =>
          rw [Act.run_bind_of_error hstage]
          exact .refused compiled seen created
      | ok c =>
          rw [Act.run_bind_of_ok hstage, Act.run_bind_of_ok (Host.run_isCancelled v')]
          rcases deleted : (host.call (.delete c.name)).run v' with ⟨x, v''⟩
          cases late : host.cancelled v' with
          | true =>
              simp only [if_true]
              rw [run_abort, deleted]
              exact .withdrawn compiled seen created late deleted
          | false =>
              simp only [Bool.false_eq_true, if_false]
              rcases derived : c.project spec with f | resource
              · simp only []
                rw [run_abort, deleted]
                exact .underivable compiled seen created late derived deleted
              · exact .made compiled seen created late derived

def cleanup (machine : String) : Except Fault Unit → String
  | .ok () => "cleanup completed (1 steps undone)"
  | .error f => "cleanup did not complete, left behind: " ++ s!"create VM {machine} ({f.text})"

/-- What was asked for and what the caller is told agree. -/
structure AllOrNothing (host : Host World) (d : Defaults) (r : Request) (w : World)
    (result : Except Fault Resource) (j : Journal) : Prop where
  atMostOnce : j.creations.length ≤ 1 ∧ j.deletions.length ≤ 1
  untried : (∀ spec v, (r.compile host d).run w = (.ok spec, v) → host.cancelled v = true) →
    j.creations = [] ∧ j.deletions = [] ∧ ∃ f, result = .error f
  tried : ∀ spec v, (r.compile host d).run w = (.ok spec, v) → host.cancelled v = false →
    j.creations = [spec] ∧ ∃ x, j.created = [x]
  refused : ∀ f seen, j.created = [(.error f, seen)] →
    j.deletions = [] ∧ ∃ g, result = .error g ∧ g.kind = f.kind
  allocated : ∀ resource, result = .ok resource →
    ∃ c, j.created = [(.ok c, false)] ∧ j.deletions = [] ∧
      resource.id = c.uid ∧ resource.name = c.name
  undone : ∀ c seen f, j.created = [(.ok c, seen)] → result = .error f →
    ∃ x, j.deletions = [c.name] ∧ j.deleted = [x] ∧
      (f.kind = .cancelled ↔ seen = true ∧ x = .ok ()) ∧
      (f.kind ≠ .cancelled → f.kind = .internal) ∧
      ∃ front : String, f.cause.message = s!"{front}; {cleanup c.name x}"

theorem journal_of_run_compile {w w' : Watched World} {x : Except Fault Machine.Spec}
    (h : (r.compile host.watched d).run w = (x, w')) :
    (r.compile host d).run w.world = (x, w'.world) ∧ w'.journal = w.journal := by
  constructor
  · rw [Request.maps_compile host.watched_covers d r w, h]
  · have hk := Request.keeps_compile (fun _ hc => host.watched_spares hc) d r w
    rw [h] at hk
    exact hk

theorem journal_of_run_create {w w' : Watched World} {spec : Machine.Spec}
    {x : Except Fault Machine.Created} (h : (host.watched.call (.create spec)).run w = (x, w')) :
    w'.journal = { w.journal with
      creations := w.journal.creations ++ [spec]
      created := w.journal.created ++ [(x, host.cancelled w'.world)] } := by
  cases h
  rfl

theorem journal_of_run_delete {w w' : Watched World} {name : String} {x : Except Fault Unit}
    (h : (host.watched.call (.delete name)).run w = (x, w')) :
    w'.journal = { w.journal with
      deletions := w.journal.deletions ++ [name]
      deleted := w.journal.deleted ++ [x] } := by
  cases h
  rfl

section Journals

variable {w : World} {spec : Machine.Spec} {c : Machine.Created} {f : Fault} {v : World}

theorem AllOrNothing.of_untried
    (h : ∀ spec v, (r.compile host d).run w = (.ok spec, v) → host.cancelled v = true) :
    AllOrNothing host d r w (.error f) {} where
  atMostOnce := ⟨Nat.zero_le 1, Nat.zero_le 1⟩
  untried _ := ⟨rfl, rfl, f, rfl⟩
  tried spec v hc hv := by
    rw [h spec v hc] at hv
    cases hv
  refused _ _ hj := by cases hj
  allocated _ hr := by cases hr
  undone _ _ _ hj := by cases hj

variable (compiled : (r.compile host d).run w = (.ok spec, v)) (seen : host.cancelled v = false)

include compiled seen

/-- Once a spec is compiled for a caller who has not cancelled, a machine is asked for. -/
theorem not_untried
    (h : ∀ spec v, (r.compile host d).run w = (.ok spec, v) → host.cancelled v = true) : False := by
  have hv := h spec v compiled
  rw [seen] at hv
  cases hv

theorem AllOrNothing.of_refused {late : Bool} {g : Fault} (hg : g.kind = f.kind) :
    AllOrNothing host d r w (.error g) { creations := [spec], created := [(.error f, late)] } where
  atMostOnce := ⟨Nat.le_refl 1, Nat.zero_le 1⟩
  untried h := (not_untried compiled seen h).elim
  tried _ _ hc _ := by
    rw [compiled] at hc
    cases hc
    exact ⟨rfl, _, rfl⟩
  refused _ _ hj := by
    cases hj
    exact ⟨rfl, g, rfl, hg⟩
  allocated _ hr := by cases hr
  undone _ _ _ hj := by cases hj

theorem AllOrNothing.of_made {resource : Resource} (derived : c.project spec = .ok resource) :
    AllOrNothing host d r w (.ok resource) { creations := [spec], created := [(.ok c, false)] } where
  atMostOnce := ⟨Nat.le_refl 1, Nat.zero_le 1⟩
  untried h := (not_untried compiled seen h).elim
  tried _ _ hc _ := by
    rw [compiled] at hc
    cases hc
    exact ⟨rfl, _, rfl⟩
  refused _ _ hj := by cases hj
  allocated _ hr := by
    cases hr
    exact ⟨c, rfl, rfl, Machine.Created.of_project_eq_ok derived⟩
  undone _ _ _ _ hr := by cases hr

theorem AllOrNothing.of_undone {late : Bool} {x : Except Fault Unit}
    (hk : f.kind = .cancelled ↔ late = true ∧ x = .ok ())
    (hi : f.kind ≠ .cancelled → f.kind = .internal)
    (hm : ∃ front : String, f.cause.message = s!"{front}; {cleanup c.name x}") :
    AllOrNothing host d r w (.error f) {
      creations := [spec], created := [(.ok c, late)], deletions := [c.name], deleted := [x] } where
  atMostOnce := ⟨Nat.le_refl 1, Nat.le_refl 1⟩
  untried h := (not_untried compiled seen h).elim
  tried _ _ hc _ := by
    rw [compiled] at hc
    cases hc
    exact ⟨rfl, _, rfl⟩
  refused _ _ hj := by cases hj
  allocated _ hr := by cases hr
  undone _ _ _ hj hr := by
    cases hj
    cases hr
    exact ⟨x, rfl, rfl, hk, hi, hm⟩

end Journals

theorem text_cleanup (machine : String) (x : Except Fault Unit) :
    (Undo.Report.single s!"create VM {machine}" x).text = cleanup machine x := by
  cases x with
  | error f => rfl
  | ok =>
      have hone : s!"cleanup completed ({1} steps undone)" =
          "cleanup completed (1 steps undone)" := by decide
      exact hone

theorem allOrNothing_of_ends {w w' : Watched World} {result : Except Fault Resource}
    (h : Ends host.watched d r w result w') (hw : w.journal = {}) :
    AllOrNothing host d r w.world result w'.journal := by
  cases h with
  | uncompiled compiled =>
      obtain ⟨compiled, hj⟩ := journal_of_run_compile compiled
      rw [hj, hw]
      refine .of_untried fun spec v hc => ?_
      rw [compiled] at hc
      cases hc
  | cancelled compiled seen =>
      obtain ⟨compiled, hj⟩ := journal_of_run_compile compiled
      rw [hj, hw]
      refine .of_untried fun spec v hc => ?_
      rw [compiled] at hc
      cases hc
      exact seen
  | refused compiled seen created =>
      obtain ⟨compiled, hj⟩ := journal_of_run_compile compiled
      rw [journal_of_run_create created, hj, hw]
      exact .of_refused compiled seen (Fault.kind_within _ _)
  | made compiled seen created late derived =>
      obtain ⟨compiled, hj⟩ := journal_of_run_compile compiled
      change host.cancelled _ = false at late
      rw [journal_of_run_create created, hj, hw, late]
      exact .of_made compiled seen derived
  | withdrawn compiled seen created late deleted =>
      obtain ⟨compiled, hj⟩ := journal_of_run_compile compiled
      change host.cancelled _ = true at late
      rw [journal_of_run_delete deleted, journal_of_run_create created, hj, hw, late]
      refine .of_undone compiled seen ?_ (Undo.Report.kind_of_ne_cancelled _ _) ?_
      · rw [Undo.Report.kind_eq_cancelled_iff, Undo.Report.isClean_single]
        exact ⟨fun hx => ⟨rfl, hx⟩, fun hx => hx.2⟩
      · obtain ⟨front, hm⟩ := Undo.Report.exists_message_cancelled _ _
        exact ⟨front, by rw [hm, text_cleanup]⟩
  | underivable compiled seen created late derived deleted =>
      obtain ⟨compiled, hj⟩ := journal_of_run_compile compiled
      change host.cancelled _ = false at late
      rw [journal_of_run_delete deleted, journal_of_run_create created, hj, hw, late]
      refine .of_undone compiled seen ⟨nofun, nofun⟩ (fun _ => rfl) ?_
      exact ⟨_, by rw [Undo.Report.message_fault, text_cleanup]⟩

/-- However the calls are answered and whenever the caller cancels, at most one machine is created,
and the outcome tells whether it is there. -/
theorem allocate_all_or_nothing (host : Host World) (d : Defaults) (r : Request) (w : World) :
    ∃ result w' j, (allocate host.watched d r).run { world := w } = (result, ⟨w', j⟩) ∧
      (allocate host d r).run w = (result, w') ∧ AllOrNothing host d r w result j := by
  refine ⟨_, _, _, rfl, maps_allocate host.watched_covers d r { world := w }, ?_⟩
  exact allOrNothing_of_ends (ends_allocate host.watched d r { world := w }) rfl

end Service

end VirtualInfra
