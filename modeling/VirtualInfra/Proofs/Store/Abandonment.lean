import VirtualInfra.Proofs.Json.Beginning
import VirtualInfra.Proofs.Store.Custody

namespace VirtualInfra.Store

open Disk Json Text

/-- What becomes of a lock file in which a beginning of a holder's document is left: the whole
document lets others in once the lifetime is over, and a document that was cut off lets nobody in,
whoever asks, how often and when. -/
structure Abandoned (s : Store) (d : Disk) (h : Holder) (front : List UInt8) : Prop where
  whole : front = h.encode → ∀ me : Holder, (∃ d', s.acquire me d = (.ok (), d')) ↔
    Holder.lifetime ≤ me.since.nanoseconds - h.since.nanoseconds
  cut : front ≠ h.encode → ∀ allowed now c, Custody.Runs s allowed ⟨d, now, []⟩ c →
    c.held = [] ∧ c.disk = d

variable {s : Store} {d : Disk} {h : Holder} {front : List UInt8}

theorem ofText?_of_cut (hb : front <+: h.encode) (hne : front ≠ h.encode) {text : String}
    (ht : ofUtf8? front = some text) : Json.ofText? text = none := by
  have hfront := utf8_of_ofUtf8? ht
  apply ofText?_of_beginning h.plain_toJson
  · apply isPrefix_of_utf8
    rw [hfront]
    exact hb
  · rintro rfl
    exact hne hfront.symm

theorem readHolder_of_cut (hf : d.found? s.lockFile = some (.file front))
    (hb : front <+: h.encode) (hne : front ≠ h.encode) : ∃ p, s.readHolder d = .error p := by
  have hread : d.read s.lockFile = .ok front := by
    rw [Disk.read, find_of_found? hf]
    rfl
  unfold readHolder
  cases ht : ofUtf8? front with
  | none =>
      have htext : d.readText s.lockFile = .error .notText := by
        rw [Disk.readText, hread, Except.ok_bind, ht]
        rfl
      rw [htext]
      exact ⟨_, rfl⟩
  | some text =>
      have htext : d.readText s.lockFile = .ok text := by
        rw [Disk.readText, hread, Except.ok_bind, ht]
        rfl
      have hnone : (Json.ofText? text >>= Holder.ofJson?) = none := by
        rw [ofText?_of_cut hb hne ht]
        rfl
      rw [htext]
      simp only [ofDisk, Except.mapError, Except.ok_bind, hnone]
      exact ⟨_, rfl⟩

theorem acquire_of_cut (hr : d.reach s.lockFile = .ok s.lockFile.path)
    (hf : d.get? s.lockFile.path = some (.file front)) (hb : front <+: h.encode)
    (hne : front ≠ h.encode) (me : Holder) : ∃ p, s.acquire me d = (.error p, d) := by
  obtain ⟨p, hp⟩ := readHolder_of_cut ((found?_of_reach hr).trans hf) hb hne
  refine ⟨p, ?_⟩
  rw [acquire_of_file hr hf, hp]

theorem acquire_of_whole (hr : d.reach s.lockFile = .ok s.lockFile.path)
    (hf : d.get? s.lockFile.path = some (.file h.encode)) (me : Holder) :
    (∃ d', s.acquire me d = (.ok (), d')) ↔
      Holder.lifetime ≤ me.since.nanoseconds - h.since.nanoseconds := by
  rw [acquire_of_file hr hf, readHolder_of_encode ((found?_of_reach hr).trans hf)]
  by_cases hfresh : h.isFresh me.since = true
  · have hlate := of_decide_eq_true hfresh
    simp only [hfresh, if_true]
    constructor
    · rintro ⟨d', heq⟩
      cases heq
    · intro hle
      omega
  · have hlate := of_decide_eq_false (Bool.eq_false_iff.2 hfresh)
    simp only [hfresh]
    exact ⟨fun _ => Int.not_lt.1 hlate, fun _ => replaceLock_of_file hr hf me⟩

/-- Behind a lock that was cut off nothing changes, by induction over what is tried. -/
theorem custody_of_cut (hr : d.reach s.lockFile = .ok s.lockFile.path)
    (hf : d.get? s.lockFile.path = some (.file front)) (hb : front <+: h.encode)
    (hne : front ≠ h.encode) {allowed : Custody → Holder → Prop} {now : Timestamp} {c : Custody}
    (hc : Custody.Runs s allowed ⟨d, now, []⟩ c) : c.held = [] ∧ c.disk = d := by
  induction hc with
  | refl => exact ⟨rfl, rfl⟩
  | wait _ _ ih => exact ih
  | @acquire c _ host process ih =>
      obtain ⟨hheld, rfl⟩ := ih
      obtain ⟨p, hp⟩ := acquire_of_cut hr hf hb hne ⟨host, process, c.now⟩
      unfold Custody.acquire
      rw [hp]
      exact ⟨hheld, rfl⟩
  | giveBack _ holder hh _ ih =>
      rw [ih.1] at hh
      cases hh

theorem abandoned_of_beginning (hr : d.reach s.lockFile = .ok s.lockFile.path)
    (hf : d.get? s.lockFile.path = some (.file front)) (hb : front <+: h.encode) :
    Abandoned s d h front where
  whole hfront me := by
    rw [hfront] at hf
    exact acquire_of_whole hr hf me
  cut hne _ _ _ hc := custody_of_cut hr hf hb hne hc

theorem Holder.encode_ne_nil (h : Holder) : h.encode ≠ [] := by
  intro hnil
  have htext : ofUtf8? h.encode = some h.toJson.pretty := ofUtf8?_utf8 _
  have hempty : ofUtf8? [] = some "" := rfl
  rw [hnil, hempty, Option.some.injEq] at htext
  have hread := ofText?_pretty h.plain_toJson
  rw [← htext] at hread
  cases hread

theorem Holder.dropLast_encode_ne (h : Holder) : h.encode.dropLast ≠ h.encode := by
  intro heq
  have hlen := congrArg List.length heq
  have hpos := List.length_pos_iff.2 h.encode_ne_nil
  rw [List.length_dropLast] at hlen
  omega

section Leftovers

def leftover (front : List UInt8) : Disk :=
  ⟨[([".kubevim"], .directory), ([".kubevim", "lock.json"], .file front)]⟩

theorem reach_leftover (front : List UInt8) :
    (leftover front).reach Custody.bare.lockFile = .ok Custody.bare.lockFile.path := rfl

theorem get?_leftover (front : List UInt8) :
    (leftover front).get? Custody.bare.lockFile.path = some (.file front) := rfl

/-- The holder was stopped after it had made the file, and before it wrote anything to it. -/
theorem abandoned_empty :
    (leftover []).reach Custody.bare.lockFile = .ok Custody.bare.lockFile.path ∧
      (leftover []).get? Custody.bare.lockFile.path = some (.file []) ∧
      [] <+: (⟨"a", 1, Custody.midnight⟩ : Holder).encode ∧
      Abandoned Custody.bare (leftover []) ⟨"a", 1, Custody.midnight⟩ [] :=
  ⟨reach_leftover [], get?_leftover [], List.nil_prefix,
    abandoned_of_beginning (reach_leftover []) (get?_leftover []) List.nil_prefix⟩

/-- The holder was stopped one byte before the end. -/
theorem not_taken_over_of_beginning : ¬ ∀ (s : Store) (d : Disk) (h : Holder) (front : List UInt8),
    d.reach s.lockFile = .ok s.lockFile.path → d.get? s.lockFile.path = some (.file front) →
      front <+: h.encode → ∃ later : Timestamp, ∀ me : Holder,
        later.nanoseconds ≤ me.since.nanoseconds → ∃ d', s.acquire me d = (.ok (), d') := by
  intro hall
  have hb := List.dropLast_prefix (⟨"a", 1, Custody.midnight⟩ : Holder).encode
  have hne := Holder.dropLast_encode_ne ⟨"a", 1, Custody.midnight⟩
  obtain ⟨later, hlater⟩ := hall _ _ _ _ (reach_leftover _) (get?_leftover _) hb
  obtain ⟨d', hd'⟩ := hlater ⟨"b", 2, later⟩ (Int.le_refl _)
  obtain ⟨p, hp⟩ := acquire_of_cut (reach_leftover _) (get?_leftover _) hb hne ⟨"b", 2, later⟩
  rw [hp] at hd'
  cases hd'

end Leftovers

end VirtualInfra.Store
