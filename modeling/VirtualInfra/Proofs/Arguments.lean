import VirtualInfra.Arguments
import VirtualInfra.Proofs.Text.Split

namespace VirtualInfra.Arguments

def IsValue (arg : String) : Prop :=
  ∀ c cs, arg.toList ≠ '-' :: c :: cs

namespace Grammar

/-- Letters behind a hyphen, with the options that they give and the one that waits for its value. -/
inductive Letters (x : Grammar) : List Char → List (Declared × String) → Option Declared → Prop
  | nil : Letters x [] [] none
  | switch {c o cs os w} (help : c ≠ helpLetter)
      (lettered : x.options.find? (·.letter = some c) = some o) (arity : o.arity = .switch)
      (tail : Letters x cs os w) : Letters x (c :: cs) ((o, "") :: os) w
  | waiting {c o} (help : c ≠ helpLetter)
      (lettered : x.options.find? (·.letter = some c) = some o) (arity : o.arity ≠ .switch) :
      Letters x [c] [] (some o)
  | equals {c o value} (help : c ≠ helpLetter)
      (lettered : x.options.find? (·.letter = some c) = some o) (arity : o.arity ≠ .switch) :
      Letters x (c :: '=' :: value) [(o, .ofList value)] none
  | joined {c o d value} (help : c ≠ helpLetter)
      (lettered : x.options.find? (·.letter = some c) = some o) (arity : o.arity ≠ .switch)
      (hd : d ≠ '=') : Letters x (c :: d :: value) [(o, .ofList (d :: value))] none

inductive Opens (x : Grammar) : List Char → List (Declared × String) → Option Declared → Prop
  | switch {name o} (hne : name ≠ []) (heq : '=' ∉ name) (help : String.ofList name ≠ helpName)
      (named : x.options.find? (·.name = .ofList name) = some o) (arity : o.arity = .switch) :
      Opens x ('-' :: '-' :: name) [(o, "")] none
  | waiting {name o} (hne : name ≠ []) (heq : '=' ∉ name) (help : String.ofList name ≠ helpName)
      (named : x.options.find? (·.name = .ofList name) = some o) (arity : o.arity ≠ .switch) :
      Opens x ('-' :: '-' :: name) [] (some o)
  | attached {name o value} (heq : '=' ∉ name) (help : String.ofList name ≠ helpName)
      (named : x.options.find? (·.name = .ofList name) = some o) (arity : o.arity ≠ .switch) :
      Opens x ('-' :: '-' :: (name ++ '=' :: value)) [(o, .ofList value)] none
  | letters {c cs os w} (hc : c ≠ '-') (h : x.Letters (c :: cs) os w) : Opens x ('-' :: c :: cs) os w

/-- Arguments up to the end or to a command, and the options that they give. -/
inductive Reads (x : Grammar) :
    List String → List (Declared × String) → Option (String × List String) → Prop
  | finish : Reads x [] [] none
  | hyphens : Reads x ["--"] [] none
  | command {name args} (h : name ∈ x.commands) : Reads x (name :: args) [] (some (name, args))
  | whole {arg args os os' rest} (opens : x.Opens arg.toList os none)
      (tail : Reads x args os' rest) : Reads x (arg :: args) (os ++ os') rest
  | apart {arg v args o os os' rest} (opens : x.Opens arg.toList os (some o)) (value : IsValue v)
      (tail : Reads x args os' rest) : Reads x (arg :: v :: args) (os ++ (o, v) :: os') rest

variable {x : Grammar} {os os' : List (Declared × String)} {o : Declared} {w w' : Option Declared}
  {cs : List Char} {arg : String} {args : List String} {rest rest' : Option (String × List String)}

structure Wordless (x : Grammar) : Prop where
  words : x.words = 0
  commands : ∀ name ∈ x.commands, IsValue name

theorem Letters.arity_ne (letters : x.Letters cs os (some o)) : o.arity ≠ .switch := by
  generalize hw : some o = w at letters
  induction letters with
  | nil | equals | joined => cases hw
  | switch _ _ _ _ ih => exact ih hw
  | waiting _ _ ho =>
      cases hw
      exact ho

theorem Opens.arity_ne (opens : x.Opens cs os (some o)) : o.arity ≠ .switch := by
  cases opens with
  | waiting _ _ _ _ ho => exact ho
  | letters _ letters => exact letters.arity_ne

theorem Opens.hyphen (opens : x.Opens cs os w) :
    (∃ c ds, cs = '-' :: c :: ds) ∧ cs ≠ ['-', '-'] := by
  cases opens with
  | switch hne | waiting hne =>
      exact ⟨⟨_, _, rfl⟩, fun he => hne (List.cons.inj (List.cons.inj he).2).2⟩
  | attached => exact ⟨⟨_, _, rfl⟩, by simp⟩
  | letters hc => exact ⟨⟨_, _, rfl⟩, fun he => hc (List.cons.inj (List.cons.inj he).2).1⟩

theorem Letters.unique (letters : x.Letters cs os w) (letters' : x.Letters cs os' w') :
    os = os' ∧ w = w' := by
  have hsame {c : Char} {o o' : Declared}
      (h : x.options.find? (·.letter = some c) = some o)
      (h' : x.options.find? (·.letter = some c) = some o') : o = o' :=
    Option.some.inj (h.symm.trans h')
  induction letters generalizing os' w' with
  | nil =>
      cases letters'
      exact ⟨rfl, rfl⟩
  | switch _ lettered ho _ ih =>
      cases letters' with
      | switch _ lettered' _ tail' =>
          cases hsame lettered lettered'
          obtain ⟨rfl, rfl⟩ := ih tail'
          exact ⟨rfl, rfl⟩
      | waiting _ lettered' ho' | equals _ lettered' ho' | joined _ lettered' ho' =>
          cases hsame lettered lettered'
          exact absurd ho ho'
  | waiting _ lettered ho =>
      cases letters' with
      | switch _ lettered' ho' =>
          cases hsame lettered lettered'
          exact absurd ho' ho
      | waiting _ lettered' =>
          cases hsame lettered lettered'
          exact ⟨rfl, rfl⟩
  | equals _ lettered ho =>
      cases letters' with
      | switch _ lettered' ho' =>
          cases hsame lettered lettered'
          exact absurd ho' ho
      | equals _ lettered' =>
          cases hsame lettered lettered'
          exact ⟨rfl, rfl⟩
      | joined _ _ _ hd => exact absurd rfl hd
  | joined _ lettered ho hd =>
      cases letters' with
      | switch _ lettered' ho' =>
          cases hsame lettered lettered'
          exact absurd ho' ho
      | equals => exact absurd rfl hd
      | joined _ lettered' =>
          cases hsame lettered lettered'
          exact ⟨rfl, rfl⟩

theorem Opens.unique (opens : x.Opens cs os w) (opens' : x.Opens cs os' w') : os = os' ∧ w = w' := by
  have hsame {name : List Char} {o o' : Declared}
      (h : x.options.find? (·.name = .ofList name) = some o)
      (h' : x.options.find? (·.name = .ofList name) = some o') : o = o' :=
    Option.some.inj (h.symm.trans h')
  have hvalue {name value : List Char} (heq : '=' ∉ name ++ '=' :: value) : False :=
    heq (List.mem_append_right _ List.mem_cons_self)
  generalize hcs : cs = cs' at opens'
  cases opens with
  | switch _ heq _ named ho =>
      cases opens' with
      | switch _ _ _ named' =>
          cases hcs
          cases hsame named named'
          exact ⟨rfl, rfl⟩
      | waiting _ _ _ named' ho' =>
          cases hcs
          cases hsame named named'
          exact absurd ho ho'
      | attached =>
          cases hcs
          exact (hvalue heq).elim
      | letters hc =>
          cases hcs
          exact absurd rfl hc
  | waiting _ heq _ named ho =>
      cases opens' with
      | switch _ _ _ named' ho' =>
          cases hcs
          cases hsame named named'
          exact absurd ho' ho
      | waiting _ _ _ named' =>
          cases hcs
          cases hsame named named'
          exact ⟨rfl, rfl⟩
      | attached =>
          cases hcs
          exact (hvalue heq).elim
      | letters hc =>
          cases hcs
          exact absurd rfl hc
  | attached heq _ named =>
      cases opens' with
      | switch _ heq' | waiting _ heq' =>
          cases hcs
          exact (hvalue heq').elim
      | attached heq' _ named' =>
          obtain ⟨rfl, rfl⟩ := Text.append_cons_inj heq heq' (List.cons.inj (List.cons.inj hcs).2).2
          cases hsame named named'
          exact ⟨rfl, rfl⟩
      | letters hc =>
          cases hcs
          exact absurd rfl hc
  | letters hc letters =>
      cases opens' with
      | switch | waiting | attached =>
          cases hcs
          exact absurd rfl hc
      | letters _ letters' =>
          cases hcs
          exact letters.unique letters'

theorem Opens.not_value (opens : x.Opens arg.toList os w) : ¬ IsValue arg := by
  obtain ⟨⟨c, ds, harg⟩, -⟩ := opens.hyphen
  exact fun value => value c ds harg

theorem Reads.unique (plain : x.Wordless) (reads : x.Reads args os rest)
    (reads' : x.Reads args os' rest') : os = os' ∧ rest = rest' := by
  have hyphens {os : List (Declared × String)} {w : Option Declared}
      (opens : x.Opens "--".toList os w) : False := opens.hyphen.2 rfl
  induction reads generalizing os' rest' with
  | finish =>
      cases reads'
      exact ⟨rfl, rfl⟩
  | hyphens =>
      cases reads' with
      | hyphens => exact ⟨rfl, rfl⟩
      | command hname => exact absurd rfl (plain.commands _ hname '-' [])
      | whole opens => exact (hyphens opens).elim
  | command hname =>
      cases reads' with
      | hyphens => exact absurd rfl (plain.commands _ hname '-' [])
      | command => exact ⟨rfl, rfl⟩
      | whole opens => exact absurd (plain.commands _ hname) opens.not_value
      | apart opens => exact absurd (plain.commands _ hname) opens.not_value
  | whole opens _ ih =>
      cases reads' with
      | hyphens => exact (hyphens opens).elim
      | command hname => exact absurd (plain.commands _ hname) opens.not_value
      | whole opens' tail' =>
          obtain ⟨rfl, -⟩ := opens.unique opens'
          obtain ⟨rfl, rfl⟩ := ih tail'
          exact ⟨rfl, rfl⟩
      | apart opens' => exact nomatch (opens.unique opens').2
  | apart opens _ _ ih =>
      cases reads' with
      | command hname => exact absurd (plain.commands _ hname) opens.not_value
      | whole opens' => exact nomatch (opens.unique opens').2
      | apart opens' _ tail' =>
          obtain ⟨rfl, hw⟩ := opens.unique opens'
          cases hw
          obtain ⟨rfl, rfl⟩ := ih tail'
          exact ⟨rfl, rfl⟩

end Grammar

end VirtualInfra.Arguments
