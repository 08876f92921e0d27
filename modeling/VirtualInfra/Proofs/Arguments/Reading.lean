import VirtualInfra.Proofs.Arguments
import VirtualInfra.Proofs.Except

namespace VirtualInfra.Arguments

namespace Given

variable {g g₁ h h' : Given} {o : Declared} {v : String} {os os' : List (Declared × String)}

structure Admits (g : Given) (o : Declared) (v : String) : Prop where
  checked : o.arity ≠ .switch → o.check v = .ok ()
  once : o.arity ≠ .many → g.has o.name = false

inductive Takes : Given → List (Declared × String) → Given → Prop
  | nil (g : Given) : Takes g [] g
  | cons {g o v os g'} (admits : g.Admits o v) (tail : Takes (g.add o v) os g') :
      Takes g ((o, v) :: os) g'

def awaiting (g : Given) : Option Declared → Given
  | none => g
  | some o => { g with pending := some (o, none) }

theorem unless_given_eq_ok_iff {b : Bool} {y : Except Problem Given} :
    (if b = true then .error .conflict else y) = .ok g₁ ↔ b = false ∧ y = .ok g₁ := by
  cases b with
  | false => exact ⟨fun h => ⟨rfl, h⟩, And.right⟩
  | true => exact ⟨nofun, nofun⟩

theorem take_switch_eq_ok_iff (ho : o.arity = .switch) {value : Option String} :
    h.take o value = .ok g₁ ↔ h.Admits o "" ∧ h.add o "" = g₁ := by
  unfold take
  rw [ho]
  simp only [unless_given_eq_ok_iff, Except.ok.injEq]
  refine and_congr_left fun _ => ⟨fun hhas => ⟨fun hn => absurd ho hn, fun _ => hhas⟩, fun ha => ?_⟩
  exact ha.once (by rw [ho]; decide)

theorem take_some_eq_ok_iff (ho : o.arity ≠ .switch) :
    h.take o (some v) = .ok g₁ ↔ h.Admits o v ∧ h.add o v = g₁ := by
  have hcheck : (o.check v).map (fun () => h.add o v) = .ok g₁ ↔
      o.check v = .ok () ∧ h.add o v = g₁ := by
    rw [Except.map_eq_ok_iff]
    exact ⟨fun ⟨(), hv, hg⟩ => ⟨hv, hg⟩, fun ⟨hv, hg⟩ => ⟨(), hv, hg⟩⟩
  unfold take
  cases harity : o.arity with
  | switch => exact absurd harity ho
  | many =>
      simp only [hcheck]
      refine and_congr_left fun _ => ⟨fun hv => ⟨fun _ => hv, fun hn => absurd harity hn⟩, fun ha => ?_⟩
      exact ha.checked ho
  | once =>
      simp only [unless_given_eq_ok_iff, hcheck, ← and_assoc]
      refine and_congr_left fun _ => ⟨fun hv => ⟨fun _ => hv.2, fun _ => hv.1⟩, fun ha => ?_⟩
      exact ⟨ha.once (by rw [harity]; decide), ha.checked ho⟩

theorem take_none_ne_ok (ho : o.arity ≠ .switch) : h.take o none ≠ .ok g₁ := by
  unfold take
  cases harity : o.arity with
  | switch => exact absurd harity ho
  | once => exact nofun
  | many => exact nofun

theorem settle_eq_self (hp : g.pending = none) : g.settle = .ok g := by
  rw [settle, hp]

theorem pending_of_take {value : Option String} (ht : h.take o value = .ok g₁)
    (hp : h.pending = none) : g₁.pending = none := by
  by_cases ho : o.arity = .switch
  · rw [← ((take_switch_eq_ok_iff ho).1 ht).2]
    exact hp
  · cases value with
    | none => exact absurd ht (take_none_ne_ok ho)
    | some v =>
        rw [← ((take_some_eq_ok_iff ho).1 ht).2]
        exact hp

theorem pending_of_settle (hs : g.settle = .ok h) : h.pending = none := by
  rw [settle] at hs
  split at hs
  · next hp => exact Except.ok.inj hs ▸ hp
  · exact pending_of_take hs rfl

theorem isWaiting_eq_false (hp : g.pending = none) : g.isWaiting = false := by
  rw [isWaiting, hp]
  rfl

theorem settle_pending (hp : h.pending = none) (o : Declared) (value : Option String) :
    settle { h with pending := some (o, value) } = h.take o value := by
  have hsame : { h with pending := none } = h := by rw [← hp]
  rw [settle]
  simp only [hsame]

theorem Takes.pending (ht : h.Takes os h') (hp : h.pending = none) : h'.pending = none := by
  induction ht with
  | nil => exact hp
  | cons _ _ ih => exact ih hp

theorem Takes.append (ht : h.Takes os h') (ht' : h'.Takes os' g) : h.Takes (os ++ os') g := by
  induction ht with
  | nil => exact ht'
  | cons admits _ ih => exact .cons admits (ih ht')

theorem exists_of_takes_append (ht : h.Takes (os ++ os') g) :
    ∃ h', h.Takes os h' ∧ h'.Takes os' g := by
  induction os generalizing h with
  | nil => exact ⟨h, .nil h, ht⟩
  | cons o os ih =>
      cases ht with
      | cons admits tail =>
          obtain ⟨h', ht, ht'⟩ := ih tail
          exact ⟨h', .cons admits ht, ht'⟩

theorem takes_singleton_iff : h.Takes [(o, v)] g ↔ h.Admits o v ∧ h.add o v = g := by
  constructor
  · rintro ⟨⟩
    next admits tail =>
      cases tail
      exact ⟨admits, rfl⟩
  · rintro ⟨admits, rfl⟩
    exact .cons admits (.nil _)

theorem start_of_settle (hs : g.settle = .ok h) (o : Declared) (attached : Option String) :
    g.start o attached = h.start o attached := by
  unfold start
  rw [hs, settle_eq_self (pending_of_settle hs)]

theorem exists_settle_of_start {attached : Option String} (hr : g.start o attached = .ok g₁) :
    ∃ h, g.settle = .ok h := by
  obtain ⟨h, hs, -⟩ := Except.bind_eq_ok_iff.1 hr
  exact ⟨h, hs⟩

theorem start_switch_eq_ok_iff (hp : h.pending = none) (ho : o.arity = .switch) :
    h.start o none = .ok g₁ ↔ h.Takes [(o, "")] g₁ := by
  rw [start, settle_eq_self hp, Except.ok_bind, if_pos (.inl ho), take_switch_eq_ok_iff ho,
    takes_singleton_iff]

theorem start_some_eq_ok_iff (hp : h.pending = none) (ho : o.arity ≠ .switch) :
    h.start o (some v) = .ok g₁ ↔ h.Takes [(o, v)] g₁ := by
  rw [start, settle_eq_self hp, Except.ok_bind, if_pos (.inr rfl), take_some_eq_ok_iff ho,
    takes_singleton_iff]

theorem start_none_eq_ok_iff (hp : h.pending = none) (ho : o.arity ≠ .switch) :
    h.start o none = .ok g₁ ↔ h.awaiting (some o) = g₁ := by
  rw [start, settle_eq_self hp, Except.ok_bind,
    if_neg (by simp [ho]), Except.pure_eq_ok_iff]
  rfl

end Given

namespace Grammar

variable {x : Grammar} {g g₁ g' h h' : Given} {o : Declared} {w : Option Declared}
  {os : List (Declared × String)} {c : Char} {cs : List Char} {arg v : String} {args : List String}
  {rest : Option (String × List String)}

def joined? : List Char → Option String
  | [] => none
  | c :: cs => some (.ofList (if c = '=' then cs else c :: cs))

theorem readLetters_cons (help : c ≠ helpLetter)
    (lettered : x.options.find? (·.letter = some c) = some o) (g : Given) (cs : List Char) :
    x.readLetters g (c :: cs) =
      if o.arity = .switch then g.start o none >>= (x.readLetters · cs)
      else g.start o (joined? cs) := by
  conv_lhs => unfold readLetters
  simp only [if_neg help, lettered]
  congr 2
  rcases cs with _ | ⟨d, value⟩
  · rfl
  · by_cases hd : d = '='
    · subst hd
      rfl
    · rw [joined?, if_neg hd]
      split
      · next heq => cases heq
      · next heq => exact absurd (List.cons.inj heq).1 hd
      · rfl

theorem lettered_of_readLetters_cons (hr : x.readLetters g (c :: cs) = .ok g₁) :
    c ≠ helpLetter ∧ ∃ o, x.options.find? (·.letter = some c) = some o := by
  unfold readLetters at hr
  by_cases help : c = helpLetter
  · rw [if_pos help] at hr
    obtain ⟨_, -, hr⟩ := Except.bind_eq_ok_iff.1 hr
    cases hr
  · refine ⟨help, ?_⟩
    rw [if_neg help] at hr
    cases lettered : x.options.find? (·.letter = some c) with
    | none =>
        simp only [lettered] at hr
        cases hr
    | some o => exact ⟨o, rfl⟩

theorem exists_letters (hp : h.pending = none) (hr : x.readLetters h cs = .ok g) :
    ∃ os w h', x.Letters cs os w ∧ h.Takes os h' ∧ h'.awaiting w = g := by
  induction cs generalizing h with
  | nil => exact ⟨[], none, h, .nil, .nil h, Except.ok.inj hr⟩
  | cons c cs ih =>
      obtain ⟨help, o, lettered⟩ := lettered_of_readLetters_cons hr
      rw [readLetters_cons help lettered] at hr
      by_cases ho : o.arity = .switch
      · rw [if_pos ho] at hr
        obtain ⟨h₁, hstart, hr⟩ := Except.bind_eq_ok_iff.1 hr
        have ht := (Given.start_switch_eq_ok_iff hp ho).1 hstart
        obtain ⟨os, w, h', letters, ht', hg⟩ := ih (ht.pending hp) hr
        exact ⟨_, w, h', .switch help lettered ho letters, ht.append ht', hg⟩
      · rw [if_neg ho] at hr
        rcases cs with _ | ⟨d, value⟩
        · have hg := (Given.start_none_eq_ok_iff hp ho).1 hr
          exact ⟨[], some o, h, .waiting help lettered ho, .nil h, hg⟩
        · have ht := (Given.start_some_eq_ok_iff hp ho).1 hr
          by_cases hd : d = '='
          · subst hd
            exact ⟨_, none, g, .equals help lettered ho, ht, rfl⟩
          · rw [if_neg hd] at ht
            exact ⟨_, none, g, .joined help lettered ho hd, ht, rfl⟩

theorem Letters.readLetters (letters : x.Letters cs os w) (hp : h.pending = none)
    (ht : h.Takes os h') : x.readLetters h cs = .ok (h'.awaiting w) := by
  induction letters generalizing h with
  | nil =>
      cases ht
      rfl
  | switch help lettered ho tail ih =>
      obtain ⟨h₁, hstart, ht⟩ := @Given.exists_of_takes_append _ _ [_] _ ht
      rw [readLetters_cons help lettered, if_pos ho, Except.bind_eq_ok_iff]
      exact ⟨h₁, (Given.start_switch_eq_ok_iff hp ho).2 hstart, ih (hstart.pending hp) ht⟩
  | waiting help lettered ho =>
      cases ht
      rw [readLetters_cons help lettered, if_neg ho]
      exact (Given.start_none_eq_ok_iff hp ho).2 rfl
  | equals help lettered ho =>
      rw [readLetters_cons help lettered, if_neg ho]
      exact (Given.start_some_eq_ok_iff hp ho).2 ht
  | joined help lettered ho hd =>
      rw [readLetters_cons help lettered, if_neg ho, joined?, if_neg hd]
      exact (Given.start_some_eq_ok_iff hp ho).2 ht

def readOption (x : Grammar) (g : Given) : List Char → Except Problem Given
  | '-' :: '-' :: cs => x.readName g cs
  | '-' :: c :: cs => x.readLetters g (c :: cs)
  | _ => .error .unknown

theorem readName_eq_ok_iff (heq : '=' ∉ cs) :
    x.readName g cs = .ok g₁ ↔ String.ofList cs ≠ helpName ∧
      ∃ o, x.options.find? (·.name = .ofList cs) = some o ∧ g.start o none = .ok g₁ := by
  rw [readName, Text.takeWhile_ne_of_notMem heq, Text.dropWhile_ne_of_notMem heq]
  simp only [Option.isSome_none, Bool.false_eq_true, if_false, and_false]
  split
  · next help =>
      refine ⟨fun hr => ?_, fun hr => absurd help hr.1⟩
      obtain ⟨_, -, hr⟩ := Except.bind_eq_ok_iff.1 hr
      cases hr
  · next help =>
      cases x.options.find? (·.name = .ofList cs) with
      | none => exact ⟨nofun, fun ⟨_, _, h, _⟩ => nomatch h⟩
      | some o => exact ⟨fun hr => ⟨help, o, rfl, hr⟩, fun ⟨_, _, rfl, hr⟩ => hr⟩

theorem readName_attached_eq_ok_iff (heq : '=' ∉ cs) {value : List Char} :
    x.readName g (cs ++ '=' :: value) = .ok g₁ ↔ String.ofList cs ≠ helpName ∧
      ∃ o, x.options.find? (·.name = .ofList cs) = some o ∧ o.arity ≠ .switch ∧
        g.start o (some (.ofList value)) = .ok g₁ := by
  rw [readName, Text.takeWhile_ne_append heq, Text.dropWhile_ne_append heq]
  simp only [Option.isSome_some, if_true, and_true]
  split
  · next help => exact ⟨nofun, fun hr => absurd help hr.1⟩
  · next help =>
      cases x.options.find? (·.name = .ofList cs) with
      | none => exact ⟨nofun, fun ⟨_, _, h, _⟩ => nomatch h⟩
      | some o =>
          by_cases ho : o.arity = .switch
          · simp only [ho, if_true]
            exact ⟨nofun, fun ⟨_, _, rfl, hn, _⟩ => absurd ho hn⟩
          · simp only [ho, if_false]
            exact ⟨fun hr => ⟨help, o, rfl, ho, hr⟩, fun ⟨_, _, rfl, _, hr⟩ => hr⟩

/-- What is pending is taken in before the option. -/
theorem readOption_of_settle (hs : g.settle = .ok h) : x.readOption g cs = x.readOption h cs := by
  have hstart := Given.start_of_settle hs
  have hself := Given.settle_eq_self (Given.pending_of_settle hs)
  unfold readOption
  split
  · simp only [readName, hs, hself, hstart]
  · unfold readLetters
    simp only [hs, hself, hstart]
  · rfl

theorem exists_settle_of_readOption (hr : x.readOption g cs = .ok g₁) :
    ∃ h, g.settle = .ok h := by
  unfold readOption at hr
  split at hr
  · next cs =>
      by_cases heq : '=' ∈ cs
      · obtain ⟨name, value, rfl, hname⟩ := List.eq_append_cons_of_mem heq
        obtain ⟨-, o, -, -, hr⟩ := (readName_attached_eq_ok_iff hname).1 hr
        exact Given.exists_settle_of_start hr
      · obtain ⟨-, o, -, hr⟩ := (readName_eq_ok_iff heq).1 hr
        exact Given.exists_settle_of_start hr
  · obtain ⟨help, o, lettered⟩ := lettered_of_readLetters_cons hr
    rw [readLetters_cons help lettered] at hr
    split at hr
    · obtain ⟨_, hr, -⟩ := Except.bind_eq_ok_iff.1 hr
      exact Given.exists_settle_of_start hr
    · exact Given.exists_settle_of_start hr
  · cases hr

theorem exists_opens (hp : h.pending = none) (hcs : cs ≠ ['-', '-'])
    (hr : x.readOption h cs = .ok g) :
    ∃ os w h', x.Opens cs os w ∧ h.Takes os h' ∧ h'.awaiting w = g := by
  unfold readOption at hr
  split at hr
  · next cs =>
      by_cases heq : '=' ∈ cs
      · obtain ⟨name, value, rfl, hname⟩ := List.eq_append_cons_of_mem heq
        obtain ⟨help, o, named, ho, hr⟩ := (readName_attached_eq_ok_iff hname).1 hr
        have ht := (Given.start_some_eq_ok_iff hp ho).1 hr
        exact ⟨_, none, g, .attached hname help named ho, ht, rfl⟩
      · obtain ⟨help, o, named, hr⟩ := (readName_eq_ok_iff heq).1 hr
        have hne : cs ≠ [] := fun he => hcs (by rw [he])
        by_cases ho : o.arity = .switch
        · have ht := (Given.start_switch_eq_ok_iff hp ho).1 hr
          exact ⟨_, none, g, .switch hne heq help named ho, ht, rfl⟩
        · have hg := (Given.start_none_eq_ok_iff hp ho).1 hr
          exact ⟨[], some o, h, .waiting hne heq help named ho, .nil h, hg⟩
  · next c cs hc =>
      obtain ⟨os, w, h', letters, ht, hg⟩ := exists_letters hp hr
      exact ⟨os, w, h', .letters hc letters, ht, hg⟩
  · cases hr

theorem Opens.readOption (opens : x.Opens cs os w) (hp : h.pending = none) (ht : h.Takes os h') :
    x.readOption h cs = .ok (h'.awaiting w) := by
  cases opens with
  | switch hne heq help named ho =>
      have hstart := (Given.start_switch_eq_ok_iff hp ho).2 ht
      exact (readName_eq_ok_iff heq).2 ⟨help, _, named, hstart⟩
  | waiting hne heq help named ho =>
      cases ht
      have hstart := (Given.start_none_eq_ok_iff hp ho).2 rfl
      exact (readName_eq_ok_iff heq).2 ⟨help, _, named, hstart⟩
  | attached heq help named ho =>
      have hstart := (Given.start_some_eq_ok_iff hp ho).2 ht
      exact (readName_attached_eq_ok_iff heq).2 ⟨help, _, named, ho, hstart⟩
  | letters hc letters =>
      have hread := letters.readLetters hp ht
      unfold Grammar.readOption
      split
      · next heq => exact absurd (List.cons.inj (List.cons.inj heq).2).1 hc
      · next heq =>
          cases heq
          exact hread
      · next hnot => exact absurd rfl (hnot _ _)

def readOut (x : Grammar) (g : Given) (args : List String) :
    Except Problem (Given × Option (String × List String)) := do
  let (g, rest) ← x.readFrom g args
  return (← g.settle, rest)

theorem readOut_eq_ok_iff : x.readOut g args = .ok (g', rest) ↔
    ∃ g₁, x.readFrom g args = .ok (g₁, rest) ∧ g₁.settle = .ok g' := by
  rw [readOut, Except.bind_eq_ok_iff]
  constructor
  · rintro ⟨⟨g₁, rest'⟩, hr, hrest⟩
    obtain ⟨h, hs, he⟩ := Except.bind_eq_ok_iff.1 hrest
    cases he
    exact ⟨g₁, hr, hs⟩
  · rintro ⟨g₁, hr, hs⟩
    refine ⟨(g₁, rest), hr, ?_⟩
    simp only [hs]
    rfl

theorem readFrom_nil_eq_ok_iff : x.readFrom g [] = .ok (g₁, rest) ↔
    g.settle = .ok g₁ ∧ rest = none := by
  rw [readFrom, Except.bind_eq_ok_iff]
  constructor
  · rintro ⟨h, hs, he⟩
    cases he
    exact ⟨hs, rfl⟩
  · rintro ⟨hs, rfl⟩
    exact ⟨g₁, hs, rfl⟩

theorem readFrom_command (hw : g.isWaiting = false) (harg : arg ∈ x.commands)
    (args : List String) : x.readFrom g (arg :: args) = .ok (g, some (arg, args)) := by
  rw [readFrom, hw, if_pos (by simpa using harg)]
  rfl

theorem goes_on (h : g.isWaiting = true ∨ arg ∉ x.commands) :
    ¬ (!g.isWaiting && x.commands.contains arg) = true := by
  rcases h with h | h <;> simp [h]

theorem readFrom_option (plain : x.Wordless) (harg : arg.toList = '-' :: c :: cs)
    (hnot : arg.toList ≠ ['-', '-']) (g : Given) (args : List String) :
    x.readFrom g (arg :: args) = x.readOption g arg.toList >>= (x.readFrom · args) := by
  have hcommand : arg ∉ x.commands := fun hmem => plain.commands arg hmem c cs harg
  rw [readFrom, if_neg (goes_on (.inr hcommand))]
  rw [harg] at hnot ⊢
  by_cases hc : c = '-'
  · subst hc
    rcases cs with _ | ⟨d, cs⟩
    · exact absurd rfl hnot
    · rfl
  · unfold readOption
    split
    · next he => exact absurd he hnot
    · next he => exact absurd (List.cons.inj (List.cons.inj he).2).1 hc
    · next he =>
        cases he
        split
        · next he => exact absurd (List.cons.inj (List.cons.inj he).2).1 hc
        · next he =>
            cases he
            rfl
        · next he => exact absurd rfl (he _ _)
    · next he => exact absurd rfl (he _ _)

theorem readFrom_value (value : IsValue v) {options : List (String × String)} {words : List String}
    (args : List String) :
    x.readFrom ⟨options, words, some (o, none)⟩ (v :: args) =
      x.readFrom ⟨options, words, some (o, some v)⟩ args := by
  rw [readFrom, if_neg (goes_on (.inl rfl))]
  split
  · next he => exact absurd he (value _ _)
  · next he => exact absurd he (value _ _)
  · next he => exact absurd he (value _ _)
  · rfl

theorem readWord_ne_ok (plain : x.Wordless) : x.readWord g v ≠ .ok g₁ := by
  rw [readWord, plain.words, if_neg (Nat.not_lt_zero _)]
  exact nofun

/-- Behind two hyphens there can only be the end. -/
theorem readFrom_hyphens_eq_ok_iff (plain : x.Wordless) :
    x.readFrom g ("--" :: args) = .ok (g₁, rest) ↔
      args = [] ∧ g.settle = .ok g₁ ∧ rest = none := by
  have hcommand : "--" ∉ x.commands := fun hmem => plain.commands _ hmem '-' [] rfl
  rw [readFrom, if_neg (goes_on (.inr hcommand))]
  change args.foldlM x.readWord g >>= (fun g => g.settle >>= fun h => pure (h, none)) = _ ↔ _
  cases args with
  | nil =>
      have hnil : x.readFrom g [] = .ok (g₁, rest) ↔ g.settle = .ok g₁ ∧ rest = none :=
        readFrom_nil_eq_ok_iff
      rw [readFrom] at hnil
      simpa using hnil
  | cons v args =>
      constructor
      · intro hr
        obtain ⟨g₂, hr, -⟩ := Except.bind_eq_ok_iff.1 hr
        obtain ⟨g₃, hr, -⟩ := Except.bind_eq_ok_iff.1 hr
        exact absurd hr (readWord_ne_ok plain)
      · rintro ⟨⟨⟩, -⟩

theorem readFrom_word_ne_ok (plain : x.Wordless) (hw : g.isWaiting = false)
    (harg : arg ∉ x.commands) (value : IsValue arg) :
    x.readFrom g (arg :: args) ≠ .ok (g₁, rest) := by
  rw [readFrom, if_neg (goes_on (.inr harg))]
  intro hr
  split at hr
  · next he => exact value _ _ he
  · next he => exact value _ _ he
  · next he => exact value _ _ he
  · split at hr
    · next hp =>
        rw [Given.isWaiting, hp] at hw
        cases hw
    · obtain ⟨g₂, hr, -⟩ := Except.bind_eq_ok_iff.1 hr
      exact readWord_ne_ok plain hr

theorem Opens.readFrom (plain : x.Wordless) (opens : x.Opens arg.toList os w)
    (hs : g.settle = .ok h) (ht : h.Takes os h') (args : List String) :
    x.readFrom g (arg :: args) = x.readFrom (h'.awaiting w) args := by
  obtain ⟨⟨c, cs, harg⟩, hnot⟩ := opens.hyphen
  rw [readFrom_option plain harg hnot, readOption_of_settle hs,
    opens.readOption (Given.pending_of_settle hs) ht]
  rfl

theorem Reads.readOut (plain : x.Wordless) (reads : x.Reads args os rest)
    (hw : g.isWaiting = false) (hs : g.settle = .ok h) (ht : h.Takes os g') :
    x.readOut g args = .ok (g', rest) := by
  have hself {k : Given} (hp : k.pending = none) : k.settle = .ok k := Given.settle_eq_self hp
  have hpending := Given.pending_of_settle hs
  induction reads generalizing g h with
  | finish =>
      cases ht
      exact readOut_eq_ok_iff.2 ⟨g', readFrom_nil_eq_ok_iff.2 ⟨hs, rfl⟩, hself hpending⟩
  | hyphens =>
      cases ht
      exact readOut_eq_ok_iff.2
        ⟨g', (readFrom_hyphens_eq_ok_iff plain).2 ⟨rfl, hs, rfl⟩, hself hpending⟩
  | command hname =>
      cases ht
      exact readOut_eq_ok_iff.2 ⟨g, readFrom_command hw hname _, hs⟩
  | whole opens _ ih =>
      obtain ⟨h', ht, ht'⟩ := Given.exists_of_takes_append ht
      have hpending' := ht.pending hpending
      rw [Grammar.readOut, opens.readFrom plain hs ht]
      exact ih (Given.isWaiting_eq_false hpending') (hself hpending') ht' hpending'
  | @apart arg v args o os os' rest opens value _ ih =>
      obtain ⟨h', ht, ht'⟩ := Given.exists_of_takes_append ht
      have hpending' := ht.pending hpending
      cases ht' with
      | cons admits tail =>
          have hsettle : Given.settle { h' with pending := some (o, some v) } = .ok (h'.add o v) := by
            rw [Given.settle_pending hpending']
            exact (Given.take_some_eq_ok_iff opens.arity_ne).2 ⟨admits, rfl⟩
          rw [Grammar.readOut, opens.readFrom plain hs ht, Given.awaiting, readFrom_value value]
          exact ih rfl hsettle tail hpending'

theorem isValue_or_option (arg : String) :
    IsValue arg ∨ arg = "--" ∨ ∃ c cs, arg.toList = '-' :: c :: cs ∧ arg.toList ≠ ['-', '-'] := by
  by_cases hvalue : IsValue arg
  · exact .inl hvalue
  · obtain ⟨c, hc⟩ := not_forall.1 hvalue
    obtain ⟨cs, hcs⟩ := not_forall.1 hc
    by_cases hnot : arg.toList = ['-', '-']
    · exact .inr (.inl (String.toList_inj.1 hnot))
    · exact .inr (.inr ⟨c, cs, not_not.1 hcs, hnot⟩)

/-- What is read when no option waits for its value. -/
def ReadsFrom (x : Grammar) (args : List String) (g' : Given)
    (rest : Option (String × List String)) : Prop :=
  ∀ g : Given, g.isWaiting = false → x.readOut g args = .ok (g', rest) →
    ∃ os h, x.Reads args os rest ∧ g.settle = .ok h ∧ h.Takes os g'

/-- What is read behind an option that waits: its value comes first. -/
def ReadsBehind (x : Grammar) (args : List String) (g' : Given)
    (rest : Option (String × List String)) : Prop :=
  ∀ (h : Given) (o : Declared), h.pending = none → o.arity ≠ .switch →
    x.readOut (h.awaiting (some o)) args = .ok (g', rest) →
      ∃ v args' os, args = v :: args' ∧ IsValue v ∧ x.Reads args' os rest ∧ h.Takes ((o, v) :: os) g'

theorem ReadsFrom.behind (plain : x.Wordless) (hf : x.ReadsFrom args g' rest) (arg : String) :
    x.ReadsBehind (arg :: args) g' rest := by
  intro h o hp ho hr
  obtain ⟨g₁, hr, hs⟩ := readOut_eq_ok_iff.1 hr
  have hwaits : ∀ k, (h.awaiting (some o)).settle ≠ .ok k := fun _ => Given.take_none_ne_ok ho
  rcases isValue_or_option arg with value | rfl | ⟨c, cs, harg, hnot⟩
  · rw [Given.awaiting, readFrom_value value] at hr
    obtain ⟨os, h', reads, hs', ht⟩ := hf _ rfl (readOut_eq_ok_iff.2 ⟨g₁, hr, hs⟩)
    rw [Given.settle_pending hp] at hs'
    obtain ⟨admits, rfl⟩ := (Given.take_some_eq_ok_iff ho).1 hs'
    exact ⟨arg, args, os, rfl, value, reads, .cons admits ht⟩
  · exact absurd ((readFrom_hyphens_eq_ok_iff plain).1 hr).2.1 (hwaits _)
  · rw [readFrom_option plain harg hnot] at hr
    obtain ⟨g₂, hopt, -⟩ := Except.bind_eq_ok_iff.1 hr
    obtain ⟨k, hk⟩ := exists_settle_of_readOption hopt
    exact absurd hk (hwaits k)

theorem ReadsFrom.cons (plain : x.Wordless) (hf : x.ReadsFrom args g' rest)
    (hb : x.ReadsBehind args g' rest) (arg : String) : x.ReadsFrom (arg :: args) g' rest := by
  intro g hw hr
  obtain ⟨g₁, hr, hs⟩ := readOut_eq_ok_iff.1 hr
  by_cases hcommand : arg ∈ x.commands
  · rw [readFrom_command hw hcommand] at hr
    cases hr
    exact ⟨[], g', .command hcommand, hs, .nil _⟩
  · rcases isValue_or_option arg with value | rfl | ⟨c, cs, harg, hnot⟩
    · exact absurd hr (readFrom_word_ne_ok plain hw hcommand value)
    · obtain ⟨rfl, hs₁, rfl⟩ := (readFrom_hyphens_eq_ok_iff plain).1 hr
      rw [Given.settle_eq_self (Given.pending_of_settle hs₁)] at hs
      cases hs
      exact ⟨[], _, .hyphens, hs₁, .nil _⟩
    · rw [readFrom_option plain harg hnot] at hr
      obtain ⟨g₂, hopt, hr⟩ := Except.bind_eq_ok_iff.1 hr
      obtain ⟨h, hs₁⟩ := exists_settle_of_readOption hopt
      rw [readOption_of_settle hs₁] at hopt
      obtain ⟨os, w, h', opens, ht, rfl⟩ := exists_opens (Given.pending_of_settle hs₁) hnot hopt
      have hp := ht.pending (Given.pending_of_settle hs₁)
      have hout := readOut_eq_ok_iff.2 ⟨g₁, hr, hs⟩
      cases w with
      | none =>
          obtain ⟨os', h₂, reads, hs₂, ht'⟩ := hf h' (Given.isWaiting_eq_false hp) hout
          rw [Given.settle_eq_self hp] at hs₂
          cases hs₂
          exact ⟨_, h, .whole opens reads, hs₁, ht.append ht'⟩
      | some o =>
          obtain ⟨v, args', os', rfl, value, reads, ht'⟩ := hb h' o hp opens.arity_ne hout
          exact ⟨_, h, .apart opens value reads, hs₁, ht.append ht'⟩

end Grammar

def Given.ofOptions (os : List (Declared × String)) : Given where
  options := os.map fun o => (o.1.name, o.2)

section Fitting

variable {g h : Given} {o : Declared} {v : String} {os : List (Declared × String)}

end Fitting

namespace Grammar

variable {x : Grammar} {g g₁ : Given} {args : List String} {rest : Option (String × List String)}

end Grammar

end VirtualInfra.Arguments
