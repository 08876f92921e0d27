import VirtualInfra.Proofs.Request.HintText
import VirtualInfra.Proofs.Resolution.Indifference

namespace VirtualInfra.Request.Hint

open Text

/-- The same segment with other blanks around its key and its value. -/
inductive Respaces : List Char → List Char → Prop
  | blank {segment segment' : List Char} (h : ∀ c ∈ segment, isBlank c = true)
      (h' : ∀ c ∈ segment', isBlank c = true) : Respaces segment segment'
  | pair {key value k k' v v' : List Char} (hmark : '=' ∉ key) (hk : Around isBlank key k)
      (hk' : Around isBlank key k') (hv : Around isBlank value v) (hv' : Around isBlank value v') :
      Respaces (k ++ '=' :: v) (k' ++ '=' :: v')

def Respaced (s s' : String) : Prop :=
  ∃ segments segments', Segments s segments ∧ Segments s' segments' ∧
    List.Forall₂ Respaces segments segments'

/-- A blank stands between the equals sign and an address. -/
inductive Detached : List Char → Prop
  | intro {key : List Char} {c : Char} (value : List Char) (hk : '=' ∉ key)
      (hip : .ofList (strip isBlank key) = "ip") (hc : isBlank c = true) :
      Detached (key ++ '=' :: c :: value)

def HasDetached (s : String) : Prop :=
  ∃ segments, Segments s segments ∧ ∃ segment ∈ segments, Detached segment

inductive Member.Echoes : Member → Member → Prop
  | subnet {id id' : String} (h : nonBlank? id' = nonBlank? id) : Echoes (.subnet id) (.subnet id')
  | network {id id' : String} (h : nonBlank? id' = nonBlank? id) :
      Echoes (.network id) (.network id')
  | address (a : Address) : Echoes (.address a) (.address a)
  | mac {text text' : String} (h : nonBlank? text' = nonBlank? text) : Echoes (.mac text) (.mac text')

theorem Member.Echoes.key_eq {m m' : Member} (h : m.Echoes m') : m'.key = m.key := by
  cases h <;> rfl

variable {h h' : Hint} {m m' : Member} {ms ms' : List Member} {s s' : String}
  {key value value' segment segment' : List Char} {segments segments' : List (List Char)}
  {said : List (List Member)}

theorem Same.say (hs : h.Same h') (hm : m.Echoes m') : (h.say m).Same (h'.say m') := by
  obtain ⟨hnetwork, hsubnet, haddress, hmac⟩ := hs
  cases hm with
  | subnet hid => exact ⟨hnetwork, hid, haddress, hmac⟩
  | network hid => exact ⟨hid, hsubnet, haddress, hmac⟩
  | address a => exact ⟨hnetwork, hsubnet, rfl, hmac⟩
  | mac htext => exact ⟨hnetwork, hsubnet, haddress, htext⟩

theorem Same.foldl_say (hs : h.Same h') (hms : List.Forall₂ Member.Echoes ms ms') :
    (ms.foldl Hint.say h).Same (ms'.foldl Hint.say h') := by
  induction hms generalizing h h' with
  | nil => exact hs
  | cons hm _ ih => exact ih (hs.say hm)

/-- No form of an address has a blank. -/
theorem isBlank_of_ofText? {a : Address} (h : Address.ofText? (.ofList value) = some a) :
    ∀ c ∈ value, isBlank c = false := by
  intro c hc
  refine (Address.isMark_of_ofText? h ?_).not_blank
  rwa [String.toList_ofList]

/-- What is said with one value is said with another one that leaves the same when it is trimmed, if
that one is no address or does not begin with a blank. -/
theorem Member.IsSaidBy.echo (hm : m.IsSaidBy (.ofList (value.rdropWhile isBlank)))
    (hs : strip isBlank value' = strip isBlank value)
    (ha : m.key = "ip" → value'.dropWhile isBlank = value') :
    ∃ m' : Member, m'.IsSaidBy (.ofList (value'.rdropWhile isBlank)) ∧ m.Echoes m' := by
  have htrim : nonBlank? (.ofList (value'.rdropWhile isBlank)) =
      nonBlank? (.ofList (value.rdropWhile isBlank)) := by
    refine nonBlank?_congr ?_
    rw [String.toList_ofList, String.toList_ofList, strip_rdropWhile, strip_rdropWhile, hs]
  cases m with
  | subnet id =>
      cases hm
      exact ⟨.subnet _, rfl, .subnet htrim⟩
  | network id =>
      cases hm
      exact ⟨.network _, rfl, .network htrim⟩
  | mac text =>
      cases hm
      exact ⟨.mac _, rfl, .mac htrim⟩
  | address a =>
      have hvalue : value'.rdropWhile isBlank = value.rdropWhile isBlank := by
        rw [← strip_eq_self (isBlank_of_ofText? hm), strip_rdropWhile, ← hs, strip_eq_rdropWhile,
          ha rfl]
      exact ⟨.address a, hvalue ▸ hm, .address a⟩

theorem Says.of_blank (hs : Says segment ms) (hb : ∀ c ∈ segment, isBlank c = true) : ms = [] := by
  cases hs with
  | blank => rfl
  | pair => exact absurd (List.mem_append_right _ List.mem_cons_self) (notMem_of_all rfl hb)

theorem Says.of_pair (hs : Says (key ++ '=' :: value) ms) (hk : '=' ∉ key) :
    ∃ m : Member, .ofList (strip isBlank key) = m.key ∧
      m.IsSaidBy (.ofList (value.rdropWhile isBlank)) ∧ ms = [m] := by
  generalize hsegment : key ++ '=' :: value = segment at hs
  cases hs with
  | blank hb =>
      rw [← hsegment] at hb
      exact absurd (List.mem_append_right _ List.mem_cons_self) (notMem_of_all rfl hb)
  | pair hk' hkey hvalue =>
      obtain ⟨rfl, rfl⟩ := append_cons_inj hk hk' hsegment
      exact ⟨_, hkey, hvalue, rfl⟩

theorem Says.not_detached (hs : Says segment ms) : ¬ Detached segment := by
  intro hd
  cases hd with
  | @intro key c value hk hip hc =>
  obtain ⟨m, hkey, hvalue, rfl⟩ := hs.of_pair hk
  cases m with
  | subnet | network | mac => exact absurd (hkey.symm.trans hip) (by simp [Member.key])
  | address a =>
      have hprefix := List.rdropWhile_prefix isBlank (c :: value)
      rcases List.prefix_cons_iff.1 hprefix with hnil | ⟨rest, hrest, -⟩
      · rw [hnil] at hvalue
        cases hvalue
      · rw [hrest] at hvalue
        have hblank := isBlank_of_ofText? hvalue c List.mem_cons_self
        exact Bool.false_ne_true (hblank.symm.trans hc)

theorem Respaces.echo (hr : Respaces segment segment') (hs : Says segment ms)
    (hd : ¬ Detached segment') :
    ∃ ms', Says segment' ms' ∧ List.Forall₂ Member.Echoes ms ms' := by
  cases hr with
  | blank hb hb' =>
      cases hs.of_blank hb
      exact ⟨[], .blank hb', .nil⟩
  | @pair key core k k' v v' hmark hk hk' hv hv' =>
      obtain ⟨m, hkey, hvalue, rfl⟩ := hs.of_pair (hk.notMem rfl hmark)
      have hmark' := hk'.notMem (p := isBlank) rfl hmark
      have hkey' : .ofList (strip isBlank k') = m.key := by rw [hk'.strip_eq, ← hk.strip_eq, hkey]
      have hstart : m.key = "ip" → v'.dropWhile isBlank = v' := by
        intro hip
        refine List.dropWhile_eq_self_iff.2 fun hlen hblank => hd ?_
        cases v' with
        | nil => cases hlen
        | cons c v' => exact .intro v' hmark' (hkey'.trans hip) hblank
      obtain ⟨m', hvalue', hecho⟩ := hvalue.echo (by rw [hv'.strip_eq, hv.strip_eq]) hstart
      exact ⟨[m'], .pair hmark' (hkey'.trans hecho.key_eq.symm) hvalue', .cons hecho .nil⟩

theorem exists_echoes (hr : List.Forall₂ Respaces segments segments')
    (hs : List.Forall₂ Says segments said) (hd : ∀ segment ∈ segments', ¬ Detached segment) :
    ∃ said', List.Forall₂ Says segments' said' ∧
      List.Forall₂ Member.Echoes said.flatten said'.flatten := by
  induction hr generalizing said with
  | nil =>
      cases hs
      exact ⟨[], .nil, .nil⟩
  | cons hr _ ih =>
      cases hs with
      | cons hs hrest =>
          obtain ⟨hfirst, hd⟩ := List.forall_mem_cons.1 hd
          obtain ⟨ms', hs', hecho⟩ := hr.echo hs hfirst
          obtain ⟨said', hsaid', hechoes⟩ := ih hrest hd
          exact ⟨ms' :: said', .cons hs' hsaid', List.rel_append hecho hechoes⟩

theorem not_hasDetached (hs : ofText s = .ok h) : ¬ HasDetached s := by
  rintro ⟨segments, hsegments, segment, hmem, hd⟩
  obtain ⟨said, hsaid, -⟩ := (ofText_eq_ok_iff hsegments).1 hs
  obtain ⟨ms, hms⟩ := List.exists_forall₂_iff.1 ⟨said, hsaid⟩ segment hmem
  exact hms.not_detached hd

theorem exists_same (hr : Respaced s s') (hs : ofText s = .ok h) (hd : ¬ HasDetached s') :
    ∃ h', ofText s' = .ok h' ∧ h.Same h' := by
  obtain ⟨segments, segments', hsegments, hsegments', hr⟩ := hr
  obtain ⟨said, hsaid, rfl⟩ := (ofText_eq_ok_iff hsegments).1 hs
  obtain ⟨said', hsaid', hechoes⟩ := exists_echoes hr hsaid fun segment hmem hsegment =>
    hd ⟨segments', hsegments', segment, hmem, hsegment⟩
  have hsame := Same.foldl_say (h := {}) ⟨rfl, rfl, rfl, rfl⟩ hechoes
  exact ⟨_, (ofText_eq_ok_iff hsegments').2 ⟨said', hsaid', rfl⟩, hsame⟩

/-- Blanks that are put in or taken out around commas, keys, equals signs and values leave a text
readable, unless one comes between an equals sign and an address, and they change nothing that an
interface is resolved to. -/
theorem resolve_respaced (hr : Respaced s s') (hs : ofText s = .ok h) :
    ((∃ h', ofText s' = .ok h') ↔ ¬ HasDetached s') ∧
      ∀ h', ofText s' = .ok h' → ∀ {World : Type} (host : Host World) (i : Interface)
        (before after : List Hint),
        i.resolve host (before ++ h' :: after) = i.resolve host (before ++ h :: after) := by
  constructor
  · constructor
    · rintro ⟨h', hs'⟩
      exact not_hasDetached hs'
    · intro hd
      obtain ⟨h', hs', -⟩ := exists_same hr hs hd
      exact ⟨h', hs'⟩
  · intro h' hs' World host i before after
    obtain ⟨h'', hs'', hsame⟩ := exists_same hr hs (not_hasDetached hs')
    cases Except.ok.inj (hs'.symm.trans hs'')
    exact ((alike_replace hsame i).equivalent host).resolve

section Spaced

def tight : String := "subnet=s1,mac=02:00,ip=10.0.0.5"

def spaced : String := "subnet = s1 ,\tmac=  02:00, ip =10.0.0.5 "

theorem respaced_tight : Respaced tight spaced := by
  have hblank : ∀ c ∈ [' '], isBlank c = true := List.all_eq_true.1 rfl
  have hblanks : ∀ c ∈ [' ', ' '], isBlank c = true := List.all_eq_true.1 rfl
  have htab : ∀ c ∈ ['\t'], isBlank c = true := List.all_eq_true.1 rfl
  refine ⟨["subnet=s1".toList, "mac=02:00".toList, "ip=10.0.0.5".toList],
    ["subnet = s1 ".toList, "\tmac=  02:00".toList, " ip =10.0.0.5 ".toList],
    ⟨by decide, by decide, nofun⟩, ⟨by decide, by decide, nofun⟩, .cons ?_ (.cons ?_ (.cons ?_ .nil))⟩
  · exact @Respaces.pair "subnet".toList "s1".toList "subnet".toList "subnet ".toList "s1".toList
      " s1 ".toList (by decide) (.refl _ _) ⟨[], [' '], nofun, hblank, rfl⟩ (.refl _ _)
      ⟨[' '], [' '], hblank, hblank, rfl⟩
  · exact @Respaces.pair "mac".toList "02:00".toList "mac".toList "\tmac".toList "02:00".toList
      "  02:00".toList (by decide) (.refl _ _) ⟨['\t'], [], htab, nofun, rfl⟩ (.refl _ _)
      ⟨[' ', ' '], [], hblanks, nofun, rfl⟩
  · exact @Respaces.pair "ip".toList "10.0.0.5".toList "ip".toList " ip ".toList "10.0.0.5".toList
      "10.0.0.5 ".toList (by decide) (.refl _ _) ⟨[' '], [' '], hblank, hblank, rfl⟩ (.refl _ _)
      ⟨[], [' '], nofun, hblank, rfl⟩

/-- The blanks are kept in what is read, and they still do not count. -/
theorem resolve_spaced : Respaced tight spaced ∧
    ∃ h h', ofText tight = .ok h ∧ ofText spaced = .ok h' ∧ h ≠ h' ∧ ¬ HasDetached spaced ∧
      ∀ {World : Type} (host : Host World) (i : Interface) (before after : List Hint),
        i.resolve host (before ++ h' :: after) = i.resolve host (before ++ h :: after) := by
  have htight : ofText tight = .ok
      { subnet := some "s1", address := some (.v4 10 0 0 5), mac := some "02:00" } := by
    decide +kernel
  have hspaced : ofText spaced = .ok
      { subnet := some " s1", address := some (.v4 10 0 0 5), mac := some "  02:00" } := by
    decide +kernel
  obtain ⟨hiff, hresolve⟩ := resolve_respaced respaced_tight htight
  exact ⟨respaced_tight, _, _, htight, hspaced, by decide, hiff.1 ⟨_, hspaced⟩, hresolve _ hspaced⟩

end Spaced

/-- A blank in front of an address makes the text unreadable, although nothing else is changed. -/
theorem malformedAddress_of_blank : Respaced "ip=10.0.0.5" "ip= 10.0.0.5" ∧
    ofText "ip=10.0.0.5" = .ok { address := some (.v4 10 0 0 5) } ∧
    ofText "ip= 10.0.0.5" = .error (.malformedAddress " 10.0.0.5") := by
  refine ⟨⟨["ip=10.0.0.5".toList], ["ip= 10.0.0.5".toList], ⟨by decide, by decide, nofun⟩,
    ⟨by decide, by decide, nofun⟩, .cons ?_ .nil⟩, by decide +kernel, by decide +kernel⟩
  exact @Respaces.pair "ip".toList "10.0.0.5".toList "ip".toList "ip".toList "10.0.0.5".toList
    " 10.0.0.5".toList (by decide) (.refl _ _) (.refl _ _) (.refl _ _)
    ⟨[' '], [], List.all_eq_true.1 rfl, nofun, rfl⟩

end VirtualInfra.Request.Hint
