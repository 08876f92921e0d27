import Mathlib.Data.List.Basic
import VirtualInfra.Json.Parser
import VirtualInfra.Json.Printer

namespace VirtualInfra.Json

open Text

def pieceOf (c : Char) : Piece :=
  if c.toNat < 0x20 ∧ c ∉ ['\x08', '\x0c', '\n', '\r', '\t'] then .unit c.toNat else .char c

theorem hexadecimal_control : ∀ n < 0x20,
    ['0', '0', Nat.digitChar (n / 16), Nat.digitChar (n % 16)].all (isDigitOf 16) = true ∧
      numberOf 16 ['0', '0', Nat.digitChar (n / 16), Nat.digitChar (n % 16)] = n := by
  decide

theorem pieces_unit {a b c d : Char} (h : [a, b, c, d].all (isDigitOf 16) = true)
    (cs : List Char) : pieces ('\\' :: 'u' :: a :: b :: c :: d :: cs) =
      (pieces cs).map fun (ps, r) => (.unit (numberOf 16 [a, b, c, d]) :: ps, r) := by
  rw [pieces, if_pos h]

theorem pieces_char {c : Char} (hq : c ≠ '"') (hs : c ≠ '\\') (hc : ¬ c.toNat < 0x20)
    (cs : List Char) : pieces (c :: cs) = (pieces cs).map fun (ps, r) => (.char c :: ps, r) := by
  rw [pieces.eq_def]
  split
  · next heq => cases heq
  · next heq => exact absurd (List.cons.inj heq).1 hq
  · next heq => exact absurd (List.cons.inj heq).1 hs
  · next heq => exact absurd (List.cons.inj heq).1 hs
  · next heq =>
      cases heq
      rw [if_neg hc]

theorem pieces_escapeChar (c : Char) (cs : List Char) :
    pieces (escapeChar c ++ cs) = (pieces cs).map fun (ps, r) => (pieceOf c :: ps, r) := by
  rw [escapeChar]
  split
  · next h => subst h; rfl
  split
  · next h => subst h; rfl
  split
  · next h => subst h; rfl
  split
  · next h => subst h; rfl
  split
  · next h => subst h; rfl
  split
  · next h => subst h; rfl
  split
  · next h => subst h; rfl
  next hq hs hb hf hn hr ht =>
  split
  · next h =>
      obtain ⟨hall, hnum⟩ := hexadecimal_control _ h
      rw [pieceOf, if_pos ⟨h, by simp [hb, hf, hn, hr, ht]⟩]
      exact (pieces_unit hall cs).trans (by rw [hnum])
  · next h =>
      rw [pieceOf, if_neg fun hc => h hc.1]
      exact pieces_char hq hs h cs

/-- The characters are read as this string up to the quote behind them. -/
def ReadsText (s : String) (cs : List Char) : Prop :=
  ∀ rest, readText (cs ++ '"' :: rest) = some (some s, rest)

/-- A string is read back if each character is, from the pieces that stand for it. -/
theorem readsText_flatMap {write : Char → List Char} {read : Char → List Piece}
    (hwrite : ∀ c cs, pieces (write c ++ cs) = (pieces cs).map fun (ps, r) => (read c ++ ps, r))
    (hread : ∀ c ps, joinPieces (read c ++ ps) = (joinPieces ps).map (c :: ·)) (s : String) :
    ReadsText s (s.toList.flatMap write) := by
  have hpieces (cs rest : List Char) :
      pieces (cs.flatMap write ++ '"' :: rest) = some (cs.flatMap read, rest) := by
    induction cs with
    | nil => rfl
    | cons c cs ih =>
        rw [List.flatMap_cons, List.append_assoc, hwrite, ih]
        rfl
  have hjoin (cs : List Char) : joinPieces (cs.flatMap read) = some cs := by
    induction cs with
    | nil => rfl
    | cons c cs ih =>
        rw [List.flatMap_cons, hread, ih]
        rfl
  intro rest
  rw [readText, hpieces]
  simp only [Option.map_some, hjoin, String.ofList_toList]

theorem joinPieces_unit {n : Nat} (h : n < 0xD800 ∨ 0xE000 ≤ n) (ps : List Piece) :
    joinPieces (.unit n :: ps) = (joinPieces ps).map (.ofNat n :: ·) := by
  rw [joinPieces.eq_def]
  split
  · next heq => cases heq
  · next heq => cases heq
  · next heq =>
      cases heq
      rw [if_neg (by omega), if_neg (by omega)]
  · next heq =>
      cases heq
      rw [if_neg (by omega)]

theorem joinPieces_pair {high low : Nat} (hhigh : 0xD800 ≤ high ∧ high < 0xDC00)
    (hlow : 0xDC00 ≤ low ∧ low < 0xE000) (ps : List Piece) :
    joinPieces (.unit high :: .unit low :: ps) =
      (joinPieces ps).map (.ofNat (0x10000 + (high - 0xD800) * 0x400 + (low - 0xDC00)) :: ·) := by
  rw [joinPieces, if_pos hhigh, if_pos hlow]

theorem joinPieces_pieceOf (c : Char) (ps : List Piece) :
    joinPieces (pieceOf c :: ps) = (joinPieces ps).map (c :: ·) := by
  rw [pieceOf]
  split
  · next h =>
      have hn : c.toNat < 0xD800 ∨ 0xE000 ≤ c.toNat := by omega
      rw [joinPieces_unit hn, Char.ofNat_toNat]
  · rw [joinPieces]

theorem hexadecimal_unit {n : Nat} (h : n < 0x10000) :
    [Nat.digitChar (n / 0x1000), Nat.digitChar (n / 0x100 % 16), Nat.digitChar (n / 0x10 % 16),
        Nat.digitChar (n % 16)].all (isDigitOf 16) = true ∧
      numberOf 16 [Nat.digitChar (n / 0x1000), Nat.digitChar (n / 0x100 % 16),
        Nat.digitChar (n / 0x10 % 16), Nat.digitChar (n % 16)] = n := by
  have h₁ := digit?_digitChar (n / 0x1000) (by omega)
  have h₂ := digit?_digitChar (n / 0x100 % 16) (by omega)
  have h₃ := digit?_digitChar (n / 0x10 % 16) (by omega)
  have h₄ := digit?_digitChar (n % 16) (by omega)
  constructor
  · simp only [List.all_cons, List.all_nil, isDigitOf, h₁, h₂, h₃, h₄, Option.isSome_some,
      Bool.and_self]
  · simp only [numberOf, List.foldl_cons, List.foldl_nil, h₁, h₂, h₃, h₄, Option.getD_some]
    omega

theorem pieces_unitEscape {n : Nat} (h : n < 0x10000) (cs : List Char) :
    pieces (unitEscape n ++ cs) = (pieces cs).map fun (ps, r) => (.unit n :: ps, r) := by
  obtain ⟨hall, hnum⟩ := hexadecimal_unit h
  exact (pieces_unit hall cs).trans (by rw [hnum])

def asciiPieces (c : Char) : List Piece :=
  if c.toNat < 0x7F then [pieceOf c]
  else if c.toNat < 0x10000 then [.unit c.toNat]
  else [.unit (0xD7C0 + c.toNat / 0x400), .unit (0xDC00 + c.toNat % 0x400)]

theorem flatMap_eq_self {f : Char → List Char} (hf : ∀ c, c.toNat < 0x7F → f c = [c])
    {cs : List Char} (h : cs.all (fun c => c.toNat < 0x7F) = true) : cs.flatMap f = cs := by
  have hself : ∀ c ∈ cs, f c = [c] := fun c hc =>
    hf c (of_decide_eq_true (List.all_eq_true.1 h c hc))
  rw [List.flatMap_congr hself, List.flatMap_singleton']

/-- The escapes themselves are written in ASCII. -/
theorem all_escapeChar {c : Char} (h : c.toNat < 0x7F) :
    (escapeChar c).all (fun d => d.toNat < 0x7F) = true := by
  have hall : ∀ n < 0x7F, (escapeChar (.ofNat n)).all (fun d => d.toNat < 0x7F) = true := by
    decide
  have hc := hall c.toNat h
  rwa [Char.ofNat_toNat] at hc

theorem asciiChars_of_lt (c : Char) (h : c.toNat < 0x7F) : asciiChars c = [c] := if_pos h

theorem escapeChar_of_le {c : Char} (h : 0x7F ≤ c.toNat) : escapeChar c = [c] := by
  have hne : ∀ d : Char, d.toNat < 0x7F → c ≠ d := by
    rintro d hd rfl
    omega
  rw [escapeChar, if_neg (hne _ (by decide)), if_neg (hne _ (by decide)),
    if_neg (hne _ (by decide)), if_neg (hne _ (by decide)), if_neg (hne _ (by decide)),
    if_neg (hne _ (by decide)), if_neg (hne _ (by decide)), if_neg (by omega)]

theorem pieces_asciiChars (c : Char) (cs : List Char) :
    pieces ((escapeChar c).flatMap asciiChars ++ cs) =
      (pieces cs).map fun (ps, r) => (asciiPieces c ++ ps, r) := by
  rw [asciiPieces]
  split
  · next h =>
      rw [flatMap_eq_self asciiChars_of_lt (all_escapeChar h), pieces_escapeChar]
      rfl
  next hascii =>
  rw [escapeChar_of_le (Nat.le_of_not_lt hascii), List.flatMap_singleton, asciiChars,
    if_neg hascii]
  split
  · next h => exact pieces_unitEscape h cs
  · have hc : c.toNat < 0xD800 ∨ 0xDFFF < c.toNat ∧ c.toNat < 0x110000 := c.valid
    rw [List.append_assoc, pieces_unitEscape (by omega), pieces_unitEscape (by omega),
      Option.map_map]
    rfl

theorem joinPieces_asciiPieces (c : Char) (ps : List Piece) :
    joinPieces (asciiPieces c ++ ps) = (joinPieces ps).map (c :: ·) := by
  have hvalid : c.toNat < 0xD800 ∨ 0xDFFF < c.toNat ∧ c.toNat < 0x110000 := c.valid
  rw [asciiPieces]
  split
  · exact joinPieces_pieceOf c ps
  split
  · rw [List.singleton_append, joinPieces_unit (by omega), Char.ofNat_toNat]
  · have hjoined : 0x10000 + (0xD7C0 + c.toNat / 0x400 - 0xD800) * 0x400 +
        (0xDC00 + c.toNat % 0x400 - 0xDC00) = c.toNat := by
      omega
    rw [List.cons_append, List.singleton_append, joinPieces_pair (by omega) (by omega), hjoined,
      Char.ofNat_toNat]

theorem readsText_escaped (s : String) : ReadsText s (s.toList.flatMap escapeChar) :=
  @readsText_flatMap escapeChar (fun c => [pieceOf c]) pieces_escapeChar joinPieces_pieceOf s

/-- A way to put a text on the line, one character after the other: ASCII stays as it is, and strings
can be read. -/
structure Conveys (f : Char → List Char) : Prop where
  ascii : ∀ c, c.toNat < 0x7F → f c = [c]
  text : ∀ s : String, ReadsText s ((s.toList.flatMap escapeChar).flatMap f)

theorem conveys_singleton : Conveys fun c => [c] where
  ascii _ _ := rfl
  text s := by
    rw [List.flatMap_singleton']
    exact readsText_escaped s

theorem conveys_asciiChars : Conveys asciiChars where
  ascii := asciiChars_of_lt
  text s := by
    rw [List.flatMap_assoc]
    exact readsText_flatMap pieces_asciiChars joinPieces_asciiPieces s

end VirtualInfra.Json
