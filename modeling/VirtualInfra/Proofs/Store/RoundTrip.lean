import VirtualInfra.Proofs.Store.Save
import VirtualInfra.Proofs.Store.Update

namespace VirtualInfra.Store

open Disk

variable {s : Store} {d d' : Disk} {st : State}

/-- A disk on which the store can be saved: its root is a directory, in which nothing of the store
is there yet or the directory of the store with its files. -/
inductive Ready (s : Store) (d : Disk) : Prop
  | vacant {base : Path} (h : s.Vacant base d)
  | shown {base : Path} {files : Files} (h : s.Shows base d files)

structure RoundTrips (s : Store) (st : State) : Prop where
  decoded : Json.ofText? st.toJson.pretty >>= State.ofJson? = some st
  saved : s.Fits → ∀ d, s.Ready d → ∃ d', s.save st d = (.ok (), d')
  restored : st.version ≤ currentVersion → ∀ d d', s.save st d = (.ok (), d') →
    ∀ now, s.load now d' = .ok st
  refused : currentVersion < st.version → ∀ d d', s.save st d = (.ok (), d') →
    ∀ now, s.load now d' = .error (.stateFile (newerText st.version))

theorem Ready.save (h : s.Ready d) (hf : s.Fits) (st : State) :
    ∃ d', s.save st d = (.ok (), d') := by
  cases h with
  | vacant h =>
      obtain ⟨d', _, hd, -⟩ := h.save hf st
      exact ⟨d', hd⟩
  | shown h =>
      obtain ⟨d', _, hd, -⟩ := h.save hf st
      exact ⟨d', hd⟩

theorem load_of_save_ok (h : s.save st d = (.ok (), d')) (now : Timestamp) :
    s.load now d' = decode st.toJson.pretty :=
  load_eq_decode (found?_of_save_ok h).1 now

/-- Whatever was on the disk, the state that is loaded next is the one that was saved. -/
theorem load_save (s : Store) (st : State) : s.RoundTrips st where
  decoded := ofText?_pretty_toJson st
  saved hf _ h := h.save hf st
  restored hv _ _ hd now := (load_of_save_ok hd now).trans (decode_pretty hv)
  refused hv _ _ hd now := (load_of_save_ok hd now).trans (decode_pretty_of_newer hv)

end VirtualInfra.Store
