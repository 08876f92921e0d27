import Mathlib.Data.List.ReduceOption
import VirtualInfra.Proofs.Address
import VirtualInfra.Proofs.Except
import VirtualInfra.Request.HintText

namespace VirtualInfra.Request.Hint

open Text

inductive Member where
  | subnet (id : String)
  | network (id : String)
  | address (a : Address)
  | mac (text : String)

namespace Member

def key : Member → String
  | subnet _ => "subnet"
  | network _ => "network"
  | address _ => "ip"
  | mac _ => "mac"

def keys : List String := ["subnet", "network", "ip", "mac"]

def text : Member → String
  | subnet id => id
  | network id => id
  | address a => a.text
  | mac text => text

def IsSaidBy (value : String) : Member → Prop
  | subnet id => value = id
  | network id => value = id
  | address a => Address.ofText? value = some a
  | mac text => value = text

def subnet? : Member → Option String
  | subnet id => some id
  | _ => none

def network? : Member → Option String
  | network id => some id
  | _ => none

def address? : Member → Option Address
  | address a => some a
  | _ => none

def mac? : Member → Option String
  | mac text => some text
  | _ => none

theorem isSaidBy_text (m : Member) : m.IsSaidBy m.text := by
  cases m with
  | address a => exact a.ofText?_text
  | subnet | network | mac => rfl

theorem key_mem_keys (m : Member) : m.key ∈ keys := by
  cases m <;> simp [key, keys]

/-- Neither the signs that a text of hints is made of nor blanks occur in a key. -/
theorem key_characters (m : Member) :
    ∀ c ∈ m.key.toList, c ≠ ',' ∧ c ≠ '=' ∧ isBlank c = false := by
  have hkeys : (keys.all fun key => key.toList.all fun c =>
      c ≠ ',' && c ≠ '=' && !isBlank c) = true := by decide
  intro c hc
  simpa [and_assoc] using List.all_eq_true.1 (List.all_eq_true.1 hkeys _ m.key_mem_keys) c hc

end Member

def say (h : Hint) : Member → Hint
  | .subnet id => { h with subnet := some id }
  | .network id => { h with network := some id }
  | .address a => { h with address := some a }
  | .mac text => { h with mac := some text }

variable {h h' : Hint} {m : Member} {ms : List Member} {s : String}
  {key value segment : List Char} {segments : List (List Char)} {said : List (List Member)}

section Segment

theorem put_eq_ok_iff {key value : String} :
    h.put key value = .ok h' ↔ ∃ m : Member, m.key = key ∧ m.IsSaidBy value ∧ h.say m = h' := by
  constructor
  · unfold put
    split
    · intro he
      exact ⟨.subnet value, rfl, rfl, Except.ok.inj he⟩
    · intro he
      exact ⟨.network value, rfl, rfl, Except.ok.inj he⟩
    · split
      · next a ha =>
          intro he
          exact ⟨.address a, rfl, ha, Except.ok.inj he⟩
      · nofun
    · intro he
      exact ⟨.mac value, rfl, rfl, Except.ok.inj he⟩
    · nofun
  · rintro ⟨m, rfl, hm, rfl⟩
    cases m with
    | address a =>
        have ha : Address.ofText? value = some a := hm
        simp [put, Member.key, ha, say]
    | subnet | network | mac =>
        cases hm
        rfl

theorem put_ne_ok_iff {key value : String} : (∀ h', h.put key value ≠ .ok h') ↔
    key ∉ Member.keys ∨ key = "ip" ∧ Address.ofText? value = none := by
  unfold put
  split
  · simp [Member.keys]
  · simp [Member.keys]
  · cases Address.ofText? value <;> simp [Member.keys]
  · simp [Member.keys]
  · next hs hn hi hm =>
      have hkey : key ∉ Member.keys := by
        simp only [Member.keys, List.mem_cons, List.not_mem_nil, or_false, not_or]
        exact ⟨hs, hn, hi, hm⟩
      simp [hkey]

def addSegment (h : Hint) (segment : List Char) : Except TextProblem Hint :=
  if strip isBlank segment = [] then .ok h else h.addPart (strip isBlank segment)

theorem ofText_eq_foldlM (s : String) : ofText s = (split ',' s.toList).foldlM addSegment {} := by
  rw [ofText, parts, List.foldlM_filter, List.foldlM_map]
  congr 1
  funext h segment
  by_cases hs : strip isBlank segment = [] <;> simp [addSegment, hs, pure, Except.pure]

theorem addSegment_pair (hk : '=' ∉ key) (value : List Char) :
    h.addSegment (key ++ '=' :: value) =
      h.put (.ofList (strip isBlank key)) (.ofList (value.rdropWhile isBlank)) := by
  have hfront : '=' ∉ key.dropWhile isBlank := fun hc => hk (List.dropWhile_subset _ hc)
  have hstrip : strip isBlank (key ++ '=' :: value) =
      key.dropWhile isBlank ++ '=' :: value.rdropWhile isBlank := strip_append_cons rfl _ _
  rw [addSegment, hstrip, if_neg (by simp), addPart, dropWhile_ne_append hfront,
    takeWhile_ne_append hfront]
  simp only [strip_dropWhile]

theorem addSegment_blank (hb : ∀ c ∈ segment, isBlank c = true) : h.addSegment segment = .ok h := by
  rw [addSegment, if_pos ((strip_eq_nil_iff _ _).2 (List.all_eq_true.2 hb))]

inductive Shape : List Char → Prop
  | blank {segment : List Char} (h : ∀ c ∈ segment, isBlank c = true) : Shape segment
  | notPair {segment : List Char} (h : ¬ ∀ c ∈ segment, isBlank c = true) (hp : '=' ∉ segment) :
      Shape segment
  | pair {key : List Char} (value : List Char) (hk : '=' ∉ key) : Shape (key ++ '=' :: value)

theorem shape (segment : List Char) : Shape segment := by
  by_cases hp : '=' ∈ segment
  · obtain ⟨key, value, rfl, hk⟩ := List.eq_append_cons_of_mem hp
    exact .pair value hk
  · by_cases hb : ∀ c ∈ segment, isBlank c = true
    · exact .blank hb
    · exact .notPair hb hp

/-- What a segment says: nothing when it is blank, and a member of a hint when it is a pair. -/
inductive Says : List Char → List Member → Prop
  | blank {segment : List Char} (h : ∀ c ∈ segment, isBlank c = true) : Says segment []
  | pair {key value : List Char} {m : Member} (hk : '=' ∉ key)
      (hkey : .ofList (strip isBlank key) = m.key)
      (hvalue : m.IsSaidBy (.ofList (value.rdropWhile isBlank))) :
      Says (key ++ '=' :: value) [m]

inductive Malformed : List Char → Prop
  | notPair {segment : List Char} (h : ¬ ∀ c ∈ segment, isBlank c = true) (hp : '=' ∉ segment) :
      Malformed segment
  | unknownKey {key : List Char} (value : List Char) (hk : '=' ∉ key)
      (h : .ofList (strip isBlank key) ∉ Member.keys) :
      Malformed (key ++ '=' :: value)
  | address {key value : List Char} (hk : '=' ∉ key) (hip : .ofList (strip isBlank key) = "ip")
      (h : Address.ofText? (.ofList (value.rdropWhile isBlank)) = none) :
      Malformed (key ++ '=' :: value)

theorem addSegment_notPair (hb : ¬ ∀ c ∈ segment, isBlank c = true) (hp : '=' ∉ segment) :
    h.addSegment segment = .error (.notPair (.ofList (strip isBlank segment))) := by
  have hstrip : '=' ∉ strip isBlank segment := by
    obtain ⟨before, after, -, -, hs⟩ := around_strip isBlank segment
    intro hc
    rw [← hs] at hp
    exact hp (List.mem_append_left _ (List.mem_append_right _ hc))
  have hne : strip isBlank segment ≠ [] := fun he =>
    hb (List.all_eq_true.1 ((strip_eq_nil_iff _ _).1 he))
  rw [addSegment, if_neg hne, addPart, dropWhile_ne_of_notMem hstrip]

theorem addSegment_eq_ok_iff :
    h.addSegment segment = .ok h' ↔ ∃ ms, Says segment ms ∧ ms.foldl say h = h' := by
  constructor
  · intro hadd
    cases shape segment with
    | blank hb =>
        rw [addSegment_blank hb] at hadd
        exact ⟨[], .blank hb, Except.ok.inj hadd⟩
    | notPair hb hp =>
        rw [addSegment_notPair hb hp] at hadd
        cases hadd
    | pair value hk =>
        rw [addSegment_pair hk, put_eq_ok_iff] at hadd
        obtain ⟨m, hkey, hvalue, rfl⟩ := hadd
        exact ⟨[m], .pair hk hkey.symm hvalue, rfl⟩
  · rintro ⟨_, hb | ⟨hk, hkey, hvalue⟩, rfl⟩
    · exact addSegment_blank hb
    · rw [addSegment_pair hk]
      exact put_eq_ok_iff.2 ⟨_, hkey.symm, hvalue, rfl⟩

theorem malformed_iff : Malformed segment ↔ ∀ ms, ¬ Says segment ms := by
  have hread : (∀ ms, ¬ Says segment ms) ↔ ∀ h', addSegment {} segment ≠ .ok h' := by
    simp only [ne_eq, addSegment_eq_ok_iff, not_exists, not_and]
    exact ⟨fun h _ t ht => absurd ht (h t), fun h t ht => h _ t ht rfl⟩
  rw [hread]
  constructor
  · rintro (⟨hb, hp⟩ | ⟨_, hk, hkey⟩ | ⟨hk, hip, ha⟩)
    · rw [addSegment_notPair hb hp]
      nofun
    · rw [addSegment_pair hk]
      exact put_ne_ok_iff.2 (.inl hkey)
    · rw [addSegment_pair hk]
      exact put_ne_ok_iff.2 (.inr ⟨hip, ha⟩)
  · intro hne
    cases shape segment with
    | blank hb => exact absurd (addSegment_blank hb) (hne _)
    | notPair hb hp => exact .notPair hb hp
    | pair value hk =>
        rw [addSegment_pair hk, put_ne_ok_iff] at hne
        rcases hne with hkey | ⟨hip, ha⟩
        · exact .unknownKey value hk hkey
        · exact .address hk hip ha

end Segment

section Reading

structure Segments (s : String) (segments : List (List Char)) : Prop where
  joined : s.toList = [','].intercalate segments
  comma : ∀ segment ∈ segments, ',' ∉ segment
  ne_nil : segments ≠ []

theorem split_eq_splitOn (c : Char) (cs : List Char) : split c cs = cs.splitOn c := by
  induction cs with
  | nil => rfl
  | cons d cs ih =>
      rw [split, ih, List.splitOn_cons_eq_if_modifyHead]
      simp only [beq_iff_eq]
      refine if_congr .rfl rfl ?_
      obtain ⟨part, parts, hparts⟩ := List.exists_cons_of_ne_nil (List.splitOn_ne_nil c cs)
      rw [hparts]
      rfl

theorem notMem_of_mem_split {c : Char} {cs part : List Char} (h : part ∈ split c cs) :
    c ∉ part := by
  induction cs generalizing part with
  | nil =>
      rw [List.mem_singleton.1 h]
      exact List.not_mem_nil
  | cons d cs ih =>
      unfold split at h
      split at h
      · rcases List.mem_cons.1 h with rfl | h
        · exact List.not_mem_nil
        · exact ih h
      · next hd =>
          split at h
          · next front parts hparts =>
              rw [hparts] at ih
              rcases List.mem_cons.1 h with rfl | h
              · exact List.not_mem_cons_of_ne_of_not_mem (Ne.symm hd) (ih List.mem_cons_self)
              · exact ih (List.mem_cons_of_mem _ h)
          · rw [List.mem_singleton.1 h]
            exact List.not_mem_cons_of_ne_of_not_mem (Ne.symm hd) List.not_mem_nil

theorem segments_split (s : String) : Segments s (split ',' s.toList) where
  joined := by rw [split_eq_splitOn, List.intercalate_splitOn]
  comma _ := notMem_of_mem_split
  ne_nil := by
    rw [split_eq_splitOn]
    exact List.splitOn_ne_nil _ _

theorem Segments.split_eq (hs : Segments s segments) : split ',' s.toList = segments := by
  rw [split_eq_splitOn, hs.joined, List.splitOn_intercalate _ hs.comma hs.ne_nil]

theorem ofText_eq_ok_iff (hs : Segments s segments) :
    ofText s = .ok h ↔ ∃ said, List.Forall₂ Says segments said ∧ said.flatten.foldl say {} = h := by
  have hrun := @Except.foldlM_eq_ok_iff_of_forall₂ TextProblem _ _ _ addSegment Says
    (fun h ms => ms.foldl say h) (fun _ _ _ => addSegment_eq_ok_iff) segments {} h
  rw [ofText_eq_foldlM, hs.split_eq, hrun]
  simp only [List.foldl_flatten]

/-- A text is refused for no other reason than a malformed segment. -/
theorem ofText_error_iff (hs : Segments s segments) :
    (∃ p, ofText s = .error p) ↔ ∃ segment ∈ segments, Malformed segment := by
  have hok : (∃ h, ofText s = .ok h) ↔ ∀ segment ∈ segments, ∃ ms, Says segment ms := by
    rw [← List.exists_forall₂_iff]
    simp only [ofText_eq_ok_iff hs]
    exact ⟨fun ⟨_, said, hsaid, _⟩ => ⟨said, hsaid⟩, fun ⟨said, hsaid⟩ => ⟨_, said, hsaid, rfl⟩⟩
  have herror : (∃ p, ofText s = .error p) ↔ ¬ ∃ h, ofText s = .ok h := by
    cases ofText s <;> simp
  rw [herror, hok]
  simp only [malformed_iff, not_forall, exists_prop, not_exists]

end Reading

section Fields

/-- Of every kind of member a hint has the last one that was said. -/
structure Lasts (ms : List Member) (h : Hint) : Prop where
  subnet : h.subnet = (ms.filterMap Member.subnet?).getLast?
  network : h.network = (ms.filterMap Member.network?).getLast?
  address : h.address = (ms.filterMap Member.address?).getLast?
  mac : h.mac = (ms.filterMap Member.mac?).getLast?

theorem field_foldl_say {α : Type} (field : Hint → Option α) (pick : Member → Option α)
    (hfield : ∀ h m, field (say h m) = (pick m).or (field h)) (ms : List Member) (h : Hint) :
    field (ms.foldl say h) = (ms.filterMap pick).getLast?.or (field h) := by
  induction ms generalizing h with
  | nil => rfl
  | cons m ms ih =>
      rw [List.foldl_cons, ih, hfield]
      cases hm : pick m with
      | none => rw [List.filterMap_cons_none hm, Option.none_or]
      | some a =>
          rw [List.filterMap_cons_some hm, List.getLast?_cons, Option.some_or]
          cases (ms.filterMap pick).getLast? <;> rfl

theorem lasts_foldl_say (ms : List Member) : Lasts ms (ms.foldl say {}) where
  subnet := by
    rw [field_foldl_say Hint.subnet Member.subnet? fun _ m => by cases m <;> rfl, Option.or_none]
  network := by
    rw [field_foldl_say Hint.network Member.network? fun _ m => by cases m <;> rfl, Option.or_none]
  address := by
    rw [field_foldl_say Hint.address Member.address? fun _ m => by cases m <;> rfl, Option.or_none]
  mac := by
    rw [field_foldl_say Hint.mac Member.mac? fun _ m => by cases m <;> rfl, Option.or_none]

theorem Lasts.unique (hl : Lasts ms h) (hl' : Lasts ms h') : h = h' := by
  obtain ⟨subnet, network, address, mac⟩ := h
  obtain ⟨subnet', network', address', mac'⟩ := h'
  obtain ⟨rfl, rfl, rfl, rfl⟩ := hl
  obtain ⟨rfl, rfl, rfl, rfl⟩ := hl'
  rfl

def members (h : Hint) : List Member :=
  (h.subnet.map .subnet).toList ++ (h.network.map .network).toList ++
    (h.address.map .address).toList ++ (h.mac.map .mac).toList

theorem eq_getLast?_of_perm {α : Type} {as : List α} {a : Option α} (h : as.Perm a.toList) :
    a = as.getLast? := by
  cases a with
  | none => rw [List.perm_nil.1 h, List.getLast?_nil]
  | some a => rw [List.perm_singleton.1 h, List.getLast?_singleton]

theorem filterMap_members (h : Hint) :
    h.members.filterMap Member.subnet? = h.subnet.toList ∧
      h.members.filterMap Member.network? = h.network.toList ∧
      h.members.filterMap Member.address? = h.address.toList ∧
      h.members.filterMap Member.mac? = h.mac.toList := by
  obtain ⟨subnet, network, address, mac⟩ := h
  cases subnet <;> cases network <;> cases address <;> cases mac <;> exact ⟨rfl, rfl, rfl, rfl⟩

/-- Each member of a hint is said once, so that it is the last of its kind in any order. -/
theorem lasts_of_perm (hp : ms.Perm h.members) : Lasts ms h := by
  obtain ⟨hsubnet, hnetwork, haddress, hmac⟩ := filterMap_members h
  exact ⟨eq_getLast?_of_perm (hsubnet ▸ hp.filterMap _),
    eq_getLast?_of_perm (hnetwork ▸ hp.filterMap _),
    eq_getLast?_of_perm (haddress ▸ hp.filterMap _), eq_getLast?_of_perm (hmac ▸ hp.filterMap _)⟩

end Fields

section Writing

structure Plain (text : String) : Prop where
  comma : ',' ∉ text.toList
  ending : ∀ c ∈ text.toList.getLast?, isBlank c = false

/-- The hints that a text can tell. An address is no matter: it has a form of its own. -/
structure Tellable (h : Hint) : Prop where
  subnet : ∀ id ∈ h.subnet, Plain id
  network : ∀ id ∈ h.network, Plain id
  mac : ∀ text ∈ h.mac, Plain text

inductive Spells : List Char → List Member → Prop
  | blank {segment : List Char} (h : ∀ c ∈ segment, isBlank c = true) : Spells segment []
  | pair {segment : List Char} (m : Member)
      (h : Around isBlank (m.key.toList ++ '=' :: m.text.toList) segment) : Spells segment [m]

/-- A text that tells all this in this order: pairs, with commas and any number of blank segments
between them. -/
def Tells (ms : List Member) (s : String) : Prop :=
  ∃ segments told, segments ≠ [] ∧ s.toList = [','].intercalate segments ∧
    List.Forall₂ Spells segments told ∧ told.flatten = ms

theorem Plain.of_ofText? {value : String} {a : Address} (h : Address.ofText? value = some a) :
    Plain value where
  comma hc := by
    rcases Address.isMark_of_ofText? h hc with hmark | hmark | hmark <;> revert hmark <;> decide
  ending _ hc := (Address.isMark_of_ofText? h (List.mem_of_getLast? hc)).not_blank

theorem Plain.rdropWhile_eq {text : String} (hp : Plain text) :
    text.toList.rdropWhile isBlank = text.toList := by
  refine List.rdropWhile_eq_self_iff.2 fun hne => ?_
  have hlast := hp.ending (text.toList.getLast hne) (List.getLast_mem_getLast? hne)
  rw [hlast]
  exact Bool.false_ne_true

theorem Tellable.plain (ht : h.Tellable) (hm : m ∈ h.members) : Plain m.text := by
  simp only [members, List.mem_append, Option.mem_toList, Option.map_eq_some_iff] at hm
  rcases hm with ((⟨id, hid, rfl⟩ | ⟨id, hid, rfl⟩) | ⟨a, -, rfl⟩) | ⟨text, htext, rfl⟩
  · exact ht.subnet id hid
  · exact ht.network id hid
  · exact .of_ofText? a.ofText?_text
  · exact ht.mac text htext

theorem Spells.toSays (hw : Spells segment ms) (hp : ∀ m ∈ ms, Plain m.text) : Says segment ms := by
  cases hw with
  | blank h => exact .blank h
  | pair m h =>
      obtain ⟨before, after, hb, ha, rfl⟩ := h
      have hshape : before ++ (m.key.toList ++ '=' :: m.text.toList) ++ after =
          (before ++ m.key.toList) ++ '=' :: (m.text.toList ++ after) := by simp
      have hfront : Around isBlank m.key.toList (before ++ m.key.toList) :=
        ⟨before, [], hb, nofun, List.append_nil _⟩
      have hmark : '=' ∉ before ++ m.key.toList :=
        hfront.notMem rfl fun hc => (m.key_characters _ hc).2.1 rfl
      have hkey : strip isBlank (before ++ m.key.toList) = m.key.toList := by
        rw [hfront.strip_eq, strip_eq_self fun c hc => (m.key_characters c hc).2.2]
      have hvalue : (m.text.toList ++ after).rdropWhile isBlank = m.text.toList := by
        rw [rdropWhile_append_of_pos ha, (hp m List.mem_cons_self).rdropWhile_eq]
      rw [hshape]
      refine .pair hmark ?_ ?_
      · rw [hkey, String.ofList_toList]
      · rw [hvalue, String.ofList_toList]
        exact m.isSaidBy_text

theorem Spells.comma (hw : Spells segment ms) (hp : ∀ m ∈ ms, Plain m.text) : ',' ∉ segment := by
  cases hw with
  | blank h => exact notMem_of_all rfl h
  | pair m h =>
      refine h.notMem rfl ?_
      simp only [List.mem_append, List.mem_cons, not_or]
      exact ⟨fun hc => (m.key_characters _ hc).1 rfl, by decide, (hp m List.mem_cons_self).comma⟩

theorem Spells.says_all (hw : List.Forall₂ Spells segments said)
    (hp : ∀ m ∈ said.flatten, Plain m.text) :
    List.Forall₂ Says segments said ∧ ∀ segment ∈ segments, ',' ∉ segment := by
  induction hw with
  | nil => exact ⟨.nil, nofun⟩
  | cons hw _ ih =>
      rw [List.flatten_cons, List.forall_mem_append] at hp
      obtain ⟨hread, hcomma⟩ := ih hp.2
      exact ⟨.cons (hw.toSays hp.1) hread, List.forall_mem_cons.2 ⟨hw.comma hp.1, hcomma⟩⟩

end Writing

/-- A hint that is written is read back, in whatever order its members stand and whatever blanks and
empty segments stand between them. Of what a text says more than once the last counts, and a text is
refused when one of its segments is malformed, and for no other reason. -/
theorem readsBack :
    (∀ h ms s, Tellable h → ms.Perm h.members → Tells ms s → ofText s = .ok h) ∧
      ∀ s, ∃ segments, Segments s segments ∧
        (∀ said, List.Forall₂ Says segments said →
          ∃ h, ofText s = .ok h ∧ Lasts said.flatten h) ∧
        ((∃ p, ofText s = .error p) ↔ ∃ segment ∈ segments, Malformed segment) := by
  constructor
  · rintro h ms s ht hp ⟨segments, told, hne, hs, hspells, rfl⟩
    obtain ⟨hread, hcomma⟩ := Spells.says_all hspells fun m hm => ht.plain (hp.mem_iff.1 hm)
    refine (ofText_eq_ok_iff ⟨hs, hcomma, hne⟩).2 ⟨told, hread, ?_⟩
    exact (lasts_foldl_say _).unique (lasts_of_perm hp)
  · intro s
    have hs := segments_split s
    refine ⟨_, hs, fun said hsaid => ?_, ofText_error_iff hs⟩
    exact ⟨_, (ofText_eq_ok_iff hs).2 ⟨said, hsaid, rfl⟩, lasts_foldl_say _⟩

section Shuffled

def shuffled : Hint where
  subnet := some " a=b"
  address := some (.v6 [0, 0, 0, 0, 0, 0, 0, 1] rfl)
  mac := some "02:00"

def shuffledMembers : List Member :=
  [.mac "02:00", .address (.v6 [0, 0, 0, 0, 0, 0, 0, 1] rfl), .subnet " a=b"]

theorem tellable_shuffled : Tellable shuffled where
  subnet id hid := by
    cases hid
    exact ⟨by decide, fun _ hc => Option.some.inj hc ▸ rfl⟩
  network _ hid := by cases hid
  mac text htext := by
    cases htext
    exact ⟨by decide, fun _ hc => Option.some.inj hc ▸ rfl⟩

theorem tells_shuffled : Tells shuffledMembers "\tmac=02:00, ,ip=::1 ,subnet= a=b,," := by
  refine ⟨["\tmac=02:00".toList, [' '], "ip=::1 ".toList, "subnet= a=b".toList, [], []],
    [[.mac "02:00"], [], [.address _], [.subnet " a=b"], [], []], by decide, by decide,
    .cons ?_ (.cons ?_ (.cons ?_ (.cons ?_ (.cons ?_ (.cons ?_ .nil))))), rfl⟩
  · exact .pair (.mac "02:00") ⟨['\t'], [], List.all_eq_true.1 rfl, nofun, rfl⟩
  · exact .blank (List.all_eq_true.1 rfl)
  · exact .pair _ ⟨[], [' '], nofun, List.all_eq_true.1 rfl, by decide +kernel⟩
  · exact .pair (.subnet " a=b") ⟨[], [], nofun, nofun, rfl⟩
  · exact .blank nofun
  · exact .blank nofun

theorem readsBack_shuffled : Tellable shuffled ∧ shuffledMembers.Perm shuffled.members ∧
    Tells shuffledMembers "\tmac=02:00, ,ip=::1 ,subnet= a=b,," ∧
    ofText "\tmac=02:00, ,ip=::1 ,subnet= a=b,," = .ok shuffled := by
  have hp : shuffledMembers.Perm shuffled.members := List.reverse_perm shuffled.members
  exact ⟨tellable_shuffled, hp, tells_shuffled,
    readsBack.1 _ _ _ tellable_shuffled hp tells_shuffled⟩

end Shuffled

end VirtualInfra.Request.Hint
