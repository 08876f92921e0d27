import VirtualInfra.Proofs.Platform.OneNode
import VirtualInfra.Proofs.Projection
import VirtualInfra.Service

namespace VirtualInfra

open Platform OneNode Store

namespace Service

variable {World : Type} {p : Platform World} {c : Catalogue} {d : Defaults} {name : String}
  {w w' : World} {f : Fault}

theorem keeps_query {γ : Type} {host : Host World} {view : World → γ}
    (hc : ∀ {α : Type} (c : Call α), c.changes = false → host.Spares view c) (name : String) :
    Act.Keeps view (query host name) :=
  (((hc _ rfl).race _).within _).bind fun m =>
    (((hc _ rfl).race _).within _).bind fun i => m.keeps_project hc i

theorem run_query_eq_view {m : Machine} (hm : p.machine name w = (.ok m, w)) :
    (query (p.host c) name).run w = (view (p.host c) m).run w := by
  have hmachine : (((p.host c).race "get VM" (.machine name)).within s!"query VM {name}").run w =
      (.ok m, w) := by
    rw [Act.run_within, run_race_host, answer, hm]
    rfl
  exact Act.run_bind_of_ok hmachine

theorem run_query_eq_project {m : Machine} {i : Option Instance}
    (hm : p.machine name w = (.ok m, w)) (hi : p.running m.spec.name w = (.ok i, w)) :
    (query (p.host c) name).run w = (m.project (p.host c) i).run w := by
  have hrunning : (((p.host c).race "get instance" (.running m.spec.name)).within
      s!"get instance of VM {m.spec.name}").run w = (.ok i, w) := by
    rw [Act.run_within, run_race_host, answer, hi]
    rfl
  exact (run_query_eq_view hm).trans (Act.run_bind_of_ok hrunning)

theorem run_query_of_error (hm : p.machine name w = (.error f, w')) :
    (query (p.host c) name).run w = (.error (f.within s!"query VM {name}"), w') := by
  apply Act.run_bind_of_error
  rw [Act.run_within, run_race_host, answer, hm]
  rfl

theorem run_operate (op : Operation)
    (hs : p.setRunStrategy name op.runStrategy w = (.ok (), w')) :
    (operate (p.host c) name op).run w = (query (p.host c) name).run w' := by
  apply Act.run_bind_of_ok (a := ())
  rw [Act.run_within, run_race_host, answer, hs]
  rfl

theorem run_operate_of_error (op : Operation)
    (hs : p.setRunStrategy name op.runStrategy w = (.error f, w')) :
    (operate (p.host c) name op).run w = (.error (f.within s!"{op.name} VM {name}"), w') := by
  apply Act.run_bind_of_error
  rw [Act.run_within, run_race_host, answer, hs]
  rfl

theorem run_terminate {x : Except Fault Unit} (hx : p.delete name w = (x, w')) :
    (terminate (p.host c) name).run w = (Fault.mark s!"terminate VM {name}" x, w') := by
  rw [terminate, Act.run_within, run_race_host, answer, hx]

end Service

theorem Platform.OneNode.Holds.run_query {w : OneNode} {t : Table Stored} {m : Stored}
    {name : String} {c : Catalogue} (h : w.Holds t) (hm : t.get? name = some m)
    (hown : m.machine.spec.name = name) :
    (Service.query (platform.host c) name).run w =
      (m.machine.project (platform.host c) m.running).run w := by
  refine Service.run_query_eq_project (machine_of_some h hm) ?_
  rw [hown]
  exact running_of_some h hm

/-- Nobody cancels before a call is answered. -/
def Host.admits {World α : Type} (host : Host World) (call : Call α) (w : World) : Bool :=
  !host.cancelled w && !host.cancelled (host.issue call w)

/-- The calls go to a node, at any time and from any caller, and look-ups to the catalogue. When the
caller cancels is up to the host, but issuing a call does nothing to the node. So a start, stop or
termination that is cancelled under way and takes effect there afterwards is left out; an
allocation sees the creation of its machine through. -/
structure Host.Drives {World : Type} (host : Host World) (node : World → OneNode)
    (c : Catalogue) : Prop where
  issue {α : Type} (call : Call α) (w : World) : (node w).Later (node (host.issue call w))
  answer {α : Type} (call : Call α) (w : World) :
    platform.answer c call (node w) = ((host.answer call w).1, node (host.answer call w).2)

theorem Platform.OneNode.drives_host (c : Catalogue) : (platform.host c).Drives id c where
  issue _ w := .refl w
  answer _ _ := rfl

namespace Host.Drives

variable {World α : Type} {host : Host World} {node : World → OneNode} {c : Catalogue}
  {v v' : World} {t : Table Stored} {x : Except Fault α} {call : Call α}

theorem consults (h : host.Drives node c) : host.Consults c := by
  intro α V call p w u hl
  rw [p.answer_of_isLookUp c platform hl u (node w), h.answer]

theorem findsIn (h : host.Drives node c) : host.FindsIn c := Host.Consults.findsIn h.consults

theorem spares (h : host.Drives node c) (hc : call.changes = false) :
    host.Spares (fun w => (node w).medium) call where
  issue w := by
    obtain ⟨now, name, process, hl⟩ := h.issue call w
    rw [hl]
    rfl
  answer w := by
    have ha : (platform.answer c call (node w)).2 = node (host.answer call w).2 :=
      congrArg Prod.snd (h.answer call w)
    rw [← ha]
    cases call <;> first | rfl | cases hc

theorem holds_of_keeps {act : Act World α} (hk : Act.Keeps (fun w => (node w).medium) act)
    (hv : (node v).Holds t) : (node (act.run v).2).Holds t :=
  hv.of_medium (hk v)

theorem run_call (h : host.Drives node c) (hx : (host.call call).run v = (x, v')) :
    ∃ w, (node v).Later w ∧ platform.answer c call w = (x, node v') := by
  refine ⟨_, h.issue call v, ?_⟩
  rw [h.answer]
  rw [Host.run_call] at hx
  rw [hx]

/-- A call that is raced is either answered or cancelled, and of a cancelled one `Drives` leaves
nothing on the node. -/
theorem run_race (h : host.Drives node c) (stage : String)
    (hx : (host.race stage call).run v = (x, v')) :
    if host.admits call v then ∃ w, (node v).Later w ∧ platform.answer c call w = (x, node v')
    else (∃ f, x = .error f) ∧ (node v).Later (node v') := by
  rw [Host.run_race] at hx
  unfold admits
  cases hbefore : host.cancelled v with
  | true =>
      rw [hbefore, if_pos rfl] at hx
      cases hx
      exact ⟨⟨_, rfl⟩, .refl _⟩
  | false =>
      rw [hbefore, if_neg Bool.false_ne_true] at hx
      cases hmeanwhile : host.cancelled (host.issue call v) with
      | true =>
          rw [hmeanwhile, if_pos rfl] at hx
          cases hx
          exact ⟨⟨_, rfl⟩, h.issue call v⟩
      | false =>
          rw [hmeanwhile, if_neg Bool.false_ne_true] at hx
          exact h.run_call hx

end Host.Drives

end VirtualInfra
