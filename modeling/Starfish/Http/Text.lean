import Mathlib.Data.Nat.Digits.Lemmas
import Starfish.Lib.Cursor
import Starfish.Quic.Frame

/-!
# Text

The string functions of the HTTP code. A string is the list of its bytes; that it is
UTF-8 is checked where the code checks it (`validUtf8`), and a slice is taken at byte
offsets that have to be character boundaries (`strSlice`).
-/

namespace Starfish.Http

open Quic (Bytes)

def ascii (text : String) : Bytes := text.toList.map fun c => UInt8.ofNat c.toNat

theorem forall_byte {P : UInt8 → Prop} (h : ∀ n < 256, P (UInt8.ofNat n)) (b : UInt8) : P b := by
  have hb := h b.toNat b.toNat_lt
  rwa [UInt8.ofNat_toNat] at hb

/-! ## UTF-8 -/

def isContinuation (b : UInt8) : Bool := 0x80 ≤ b && b ≤ 0xbf

/-- The ranges of the bytes that follow a first byte: no overlong form, no surrogate, nothing
above U+10FFFF. -/
def following (first : UInt8) : Option (List (UInt8 × UInt8)) :=
  if first < 0x80 then some []
  else if first < 0xc2 then none
  else if first ≤ 0xdf then some [(0x80, 0xbf)]
  else if first = 0xe0 then some [(0xa0, 0xbf), (0x80, 0xbf)]
  else if first = 0xed then some [(0x80, 0x9f), (0x80, 0xbf)]
  else if first ≤ 0xef then some [(0x80, 0xbf), (0x80, 0xbf)]
  else if first = 0xf0 then some [(0x90, 0xbf), (0x80, 0xbf), (0x80, 0xbf)]
  else if first ≤ 0xf3 then some [(0x80, 0xbf), (0x80, 0xbf), (0x80, 0xbf)]
  else if first = 0xf4 then some [(0x80, 0x8f), (0x80, 0xbf), (0x80, 0xbf)]
  else none

/-- UTF-8 in the middle of a character whose other bytes are in the ranges `expected`. -/
def validFrom : List (UInt8 × UInt8) → Bytes → Bool
  | expected, [] => expected.isEmpty
  | [], b :: rest =>
    match following b with
    | some expected => validFrom expected rest
    | none => false
  | range :: expected, b :: rest => range.1 ≤ b && b ≤ range.2 && validFrom expected rest

/-- `std::str::from_utf8` accepts the bytes. -/
def validUtf8 (s : Bytes) : Bool := validFrom [] s

def isCharBoundary (s : Bytes) (i : Nat) : Bool :=
  match s[i]? with
  | some b => !isContinuation b
  | none => i == s.length

/-- `&s[i..j]`: an offset that is not a character boundary panics. -/
def strSlice {ε : Type} (s : Bytes) (i j : Nat) : Outcome ε Bytes :=
  if i ≤ j ∧ isCharBoundary s i ∧ isCharBoundary s j then .ok ((s.drop i).take (j - i)) else .panic

theorem validUtf8_cons {b : UInt8} (h : b < 0x80) (s : Bytes) :
    validUtf8 (b :: s) = validUtf8 s := by
  rw [validUtf8, validFrom, following, if_pos h, validUtf8]

variable {s : Bytes}

theorem validUtf8_of_ascii (h : ∀ b ∈ s, b < 0x80) : validUtf8 s = true := by
  induction s with
  | nil => rfl
  | cons a rest ih =>
    grind [validUtf8_cons]

theorem validFrom_append {expected : List (UInt8 × UInt8)} (hs : validFrom expected s = true)
    (t : Bytes) :
    validFrom expected (s ++ t) = validFrom [] t := by
  induction s generalizing expected with
  | nil =>
    cases expected with
    | nil => rfl
    | cons range rest => cases hs
  | cons b rest ih =>
    cases expected with
    | nil =>
      grind [validFrom]
    | cons range expected =>
      rw [validFrom, Bool.and_eq_true] at hs
      rw [List.cons_append, validFrom, hs.1, Bool.true_and]
      exact ih hs.2

theorem validUtf8_append (hs : validUtf8 s = true) (t : Bytes) :
    validUtf8 (s ++ t) = validUtf8 t :=
  validFrom_append hs t

/-! ## White space -/

def isAsciiWhitespace (b : UInt8) : Bool := (0x09 ≤ b && b ≤ 0x0d) || b == 0x20

/-- U+0085 and U+00A0. -/
def isWhitespaceTwo (a b : UInt8) : Bool := a == 0xc2 && (b == 0x85 || b == 0xa0)

/-- U+1680, U+2000 to U+200A, U+2028, U+2029, U+202F, U+205F and U+3000. -/
def isWhitespaceThree (a b c : UInt8) : Bool :=
  (a == 0xe1 && b == 0x9a && c == 0x80) ||
  (a == 0xe2 && b == 0x80 && ((0x80 ≤ c && c ≤ 0x8a) || c == 0xa8 || c == 0xa9 || c == 0xaf)) ||
  (a == 0xe2 && b == 0x81 && c == 0x9f) ||
  (a == 0xe3 && b == 0x80 && c == 0x80)

/-- The length of the white-space character a string starts with, 0 if it starts with none. -/
def leadingSpace (s : Bytes) : Nat :=
  match s with
  | [] => 0
  | a :: rest =>
    if isAsciiWhitespace a then 1
    else match rest with
      | [] => 0
      | b :: rest =>
        if isWhitespaceTwo a b then 2
        else match rest with
          | [] => 0
          | c :: _ => if isWhitespaceThree a b c then 3 else 0

/-- The same for the end of a string, whose bytes are given last one first. -/
def trailingSpace (s : Bytes) : Nat :=
  match s with
  | [] => 0
  | a :: rest =>
    if isAsciiWhitespace a then 1
    else match rest with
      | [] => 0
      | b :: rest =>
        if isWhitespaceTwo b a then 2
        else match rest with
          | [] => 0
          | c :: _ => if isWhitespaceThree c b a then 3 else 0

def dropSpaces (measure : Bytes → Nat) : Nat → Bytes → Bytes
  | 0, s => s
  | fuel + 1, s => if measure s = 0 then s else dropSpaces measure fuel (s.drop (measure s))

def trimStart (s : Bytes) : Bytes := dropSpaces leadingSpace s.length s

def trimEnd (s : Bytes) : Bytes := (dropSpaces trailingSpace s.length s.reverse).reverse

/-- `str::trim`. -/
def trim (s : Bytes) : Bytes := trimEnd (trimStart s)

def Trimmed (s : Bytes) : Prop := leadingSpace s = 0 ∧ trailingSpace s.reverse = 0

instance (s : Bytes) : Decidable (Trimmed s) := inferInstanceAs (Decidable (_ ∧ _))

theorem ne_of_ascii {a c : UInt8} (ha : a < 0x80) (hc : 0x80 ≤ c) : a ≠ c := by
  rintro rfl
  exact absurd ha (UInt8.not_lt.mpr hc)

theorem spaces_of_ascii {a : UInt8} (ha : a < 0x80) (b c : UInt8) :
    isWhitespaceTwo a b = false ∧ isWhitespaceTwo b a = false ∧
      isWhitespaceThree a b c = false ∧ isWhitespaceThree c b a = false := by
  have hlow : ¬(0x80 : UInt8) ≤ a := UInt8.not_le.mpr ha
  have hne : ∀ x : UInt8, 0x80 ≤ x → a ≠ x := fun x hx => ne_of_ascii ha hx
  simp [isWhitespaceTwo, isWhitespaceThree, hlow, hne 0xc2 (by decide), hne 0xe1 (by decide),
    hne 0xe2 (by decide), hne 0xe3 (by decide), hne 0x85 (by decide), hne 0xa0 (by decide),
    hne 0x80 (by decide), hne 0xa8 (by decide), hne 0xa9 (by decide), hne 0xaf (by decide),
    hne 0x9f (by decide)]

theorem trimmed_of_ascii (hascii : ∀ b ∈ s, b < 0x80)
    (hspace : ∀ b ∈ s, isAsciiWhitespace b = false) : Trimmed s := by
  have hlead : ∀ t : Bytes, (∀ b ∈ t, b < 0x80) → (∀ b ∈ t, isAsciiWhitespace b = false) →
      leadingSpace t = 0 ∧ trailingSpace t = 0 := by
    intro t ht hw
    cases t with
    | nil => exact ⟨rfl, rfl⟩
    | cons a rest =>
      have ha := spaces_of_ascii (ht a (by simp))
      have hfront := fun b c => (ha b c).2.2.1
      have hback := fun b c => (ha b c).2.2.2
      have hwa := hw a (by simp)
      constructor
      · cases rest with
        | nil => simp [leadingSpace, hwa]
        | cons b rest => cases rest <;> simp [leadingSpace, hwa, (ha b 0).1, hfront]
      · cases rest with
        | nil => simp [trailingSpace, hwa]
        | cons b rest => cases rest <;> simp [trailingSpace, hwa, (ha b 0).2.1, hback]
  refine ⟨(hlead s hascii hspace).1, (hlead s.reverse ?_ ?_).2⟩
  · simpa using hascii
  · simpa using hspace

theorem dropSpaces_of_none {measure : Bytes → Nat} (h : measure s = 0) (fuel : Nat) :
    dropSpaces measure fuel s = s := by
  cases fuel with
  | zero => rfl
  | succ fuel => rw [dropSpaces, if_pos h]

theorem trim_of_trimmed (h : Trimmed s) : trim s = s := by
  rw [trim, trimStart, dropSpaces_of_none h.1, trimEnd, dropSpaces_of_none h.2, List.reverse_reverse]

theorem trim_space_cons (h : Trimmed s) : trim (0x20 :: s) = s := by
  have hstart : trimStart (0x20 :: s) = s := by
    exact dropSpaces_of_none h.1 _
  rw [trim, hstart, trimEnd, dropSpaces_of_none h.2, List.reverse_reverse]

/-! ## Case and parts -/

def toLower (b : UInt8) : UInt8 := if 0x41 ≤ b ∧ b ≤ 0x5a then b + 0x20 else b

def eqIgnoreAsciiCase (s t : Bytes) : Bool := s.map toLower == t.map toLower

theorem eqIgnoreAsciiCase_refl (s : Bytes) : eqIgnoreAsciiCase s s = true := beq_self_eq_true _

/-- `str::split_once`: what stands before and after the first separator. -/
def splitOnce (sep : UInt8) : Bytes → Option (Bytes × Bytes)
  | [] => none
  | b :: rest =>
    if b = sep then some ([], rest)
    else (splitOnce sep rest).map fun parts => (b :: parts.1, parts.2)

/-- What stands before and after the last separator. -/
def rsplitOnce (sep : UInt8) (s : Bytes) : Option (Bytes × Bytes) :=
  (splitOnce sep s.reverse).map fun parts => (parts.2.reverse, parts.1.reverse)

def splitN (sep : UInt8) : Nat → Bytes → List Bytes
  | 0, _ => []
  | 1, s => [s]
  | n + 2, s =>
    match splitOnce sep s with
    | some parts => parts.1 :: splitN sep (n + 1) parts.2
    | none => [s]

/-- `str::split`. -/
def splitOn (sep : UInt8) : Bytes → List Bytes
  | [] => [[]]
  | b :: rest =>
    if b = sep then [] :: splitOn sep rest
    else (splitOn sep rest).modifyHead (b :: ·)

variable {sep : UInt8}

theorem splitOnce_append {front : Bytes} (h : sep ∉ front) (back : Bytes) :
    splitOnce sep (front ++ sep :: back) = some (front, back) := by
  induction front with
  | nil => rw [List.nil_append, splitOnce, if_pos rfl]
  | cons b rest ih =>
    rw [List.mem_cons, not_or] at h
    rw [List.cons_append, splitOnce, if_neg (Ne.symm h.1), ih h.2]
    rfl

theorem splitOnce_eq_some {front back : Bytes} (h : splitOnce sep s = some (front, back)) :
    s = front ++ sep :: back ∧ sep ∉ front := by
  induction s generalizing front with
  | nil => cases h
  | cons b rest ih =>
    rw [splitOnce] at h
    split at h
    next heq =>
        cases h
        exact ⟨by rw [heq, List.nil_append], by simp⟩
    next hne =>
        obtain ⟨⟨l, r⟩, hparts, hcons⟩ := Option.map_eq_some_iff.mp h
        cases hcons
        obtain ⟨hs, hnot⟩ := ih hparts
        refine ⟨by rw [hs, List.cons_append], ?_⟩
        rw [List.mem_cons, not_or]
        exact ⟨Ne.symm hne, hnot⟩

theorem splitOn_of_notMem (h : sep ∉ s) : splitOn sep s = [s] := by
  induction s with
  | nil => rfl
  | cons b rest ih =>
    rw [List.mem_cons, not_or] at h
    rw [splitOn, if_neg (Ne.symm h.1), ih h.2]
    rfl

theorem splitN_three {first second third : Bytes} {rest : List Bytes}
    (h : splitN sep 3 s = first :: second :: third :: rest) :
    s = first ++ sep :: (second ++ sep :: third) ∧ sep ∉ first ∧ sep ∉ second := by
  rw [splitN] at h
  split at h
  · next parts hparts =>
      rw [splitN] at h
      split at h
      · next more hmore =>
          cases h
          obtain ⟨hs, hfirst⟩ := splitOnce_eq_some hparts
          obtain ⟨hr, hsecond⟩ := splitOnce_eq_some hmore
          exact ⟨by rw [hs, hr], hfirst, hsecond⟩
      · cases h
  · cases h

theorem splitN_three_append {first second : Bytes} (hfirst : sep ∉ first) (hsecond : sep ∉ second)
    (third : Bytes) :
    splitN sep 3 (first ++ sep :: (second ++ sep :: third)) = [first, second, third] := by
  grind [splitN, splitOnce_append]

/-! ## Numbers -/

def isDigit (b : UInt8) : Bool := 0x30 ≤ b && b ≤ 0x39

/-- `char::to_digit`, for the radices 10 and 16. -/
def digitValue (radix : Nat) (b : UInt8) : Option Nat :=
  let value :=
    if isDigit b then some (b.toNat - 0x30)
    else if 0x61 ≤ b ∧ b ≤ 0x7a then some (b.toNat - 0x61 + 10)
    else if 0x41 ≤ b ∧ b ≤ 0x5a then some (b.toNat - 0x41 + 10)
    else none
  value.filter (· < radix)

/-- Digits after those that denote `acc`; a number above `max` does not fit the type. -/
def parseDigits (radix max : Nat) : Nat → Bytes → Option Nat
  | acc, [] => some acc
  | acc, b :: rest =>
    match digitValue radix b with
    | none => none
    | some d =>
      if acc * radix + d ≤ max then parseDigits radix max (acc * radix + d) rest else none

/-- `from_str_radix` of an unsigned type with the largest value `max`: one or more digits, with
or without a `+` before them. -/
def parseUnsigned (radix max : Nat) (s : Bytes) : Option Nat :=
  match s with
  | [] => none
  | b :: rest =>
    if b = 0x2b then
      if rest = [] then none else parseDigits radix max 0 rest
    else parseDigits radix max 0 (b :: rest)

def parseU64 (s : Bytes) : Option Nat := parseUnsigned 10 (2 ^ 64 - 1) s

def parseU16 (s : Bytes) : Option Nat := parseUnsigned 10 (2 ^ 16 - 1) s

/-- `usize::from_str_radix(s, 16)`. -/
def parseHex (s : Bytes) : Option Nat := parseUnsigned 16 (2 ^ 64 - 1) s

def parseI64 (s : Bytes) : Option Int :=
  match s with
  | [] => none
  | b :: rest =>
    if b = 0x2d then
      if rest = [] then none else (parseDigits 10 (2 ^ 63) 0 rest).map fun n => -(n : Int)
    else (parseUnsigned 10 (2 ^ 63 - 1) (b :: rest)).map fun n => (n : Int)

def digitByte (d : Nat) : UInt8 := UInt8.ofNat (0x30 + d)

/-- A number as it is displayed. -/
def decimal (n : Nat) : Bytes :=
  if n = 0 then [0x30] else (Nat.digits 10 n).reverse.map digitByte

def hexDigit (d : Nat) : UInt8 := if d < 10 then digitByte d else UInt8.ofNat (0x57 + d)

/-- A number in the format `{:x}`. -/
def hexadecimal (n : Nat) : Bytes :=
  if n = 0 then [0x30] else (Nat.digits 16 n).reverse.map hexDigit

theorem digitByte_facts : ∀ d < 10, digitValue 10 (digitByte d) = some d ∧
    isDigit (digitByte d) = true ∧ digitByte d ≠ 0x2b := by decide

theorem hexDigit_facts : ∀ d < 16, digitValue 16 (hexDigit d) = some d ∧ hexDigit d ≠ 0x2b ∧
    hexDigit d ≠ 0x3b ∧ hexDigit d ≠ 0x0a ∧ hexDigit d < 0x80 ∧
    isAsciiWhitespace (hexDigit d) = false := by decide

section Digits

variable {max n radix : Nat} {write : Nat → UInt8}
  (hwrite : ∀ d < radix, digitValue radix (write d) = some d ∧ write d ≠ 0x2b)

include hwrite

theorem parseDigits_digits (digits : List Nat) (hlt : ∀ d ∈ digits, d < radix) {acc : Nat}
    (hfit : digits.foldl (fun acc d => acc * radix + d) acc ≤ max) :
    parseDigits radix max acc (digits.map write) =
      some (digits.foldl (fun acc d => acc * radix + d) acc) := by
  induction digits generalizing acc with
  | nil => rfl
  | cons d rest ih =>
    have hradix : 1 ≤ radix := Nat.lt_of_le_of_lt (Nat.zero_le d) (hlt d List.mem_cons_self)
    have hgrow : ∀ (l : List Nat) (a : Nat), a ≤ l.foldl (fun acc d => acc * radix + d) a := by
      intro l
      induction l with
      | nil => exact fun a => Nat.le_refl a
      | cons x l ihl =>
        intro a
        have hmul := Nat.le_mul_of_pos_right a hradix
        exact Nat.le_trans (by omega) (ihl (a * radix + x))
    rw [List.map_cons, parseDigits, (hwrite d (hlt d List.mem_cons_self)).1]
    dsimp only
    rw [if_pos (Nat.le_trans (hgrow rest _) hfit)]
    exact ih (fun x hx => hlt x (List.mem_cons_of_mem d hx)) hfit

theorem parseUnsigned_digits (hradix : 1 < radix) (hn : n ≠ 0) (h : n ≤ max) :
    parseUnsigned radix max ((Nat.digits radix n).reverse.map write) = some n := by
  have hlt : ∀ d ∈ (Nat.digits radix n).reverse, d < radix := fun d hd =>
    Nat.digits_lt_base hradix (List.mem_reverse.mp hd)
  have hvalue : (Nat.digits radix n).reverse.foldl (fun acc d => acc * radix + d) 0 = n := by
    grind [Nat.ofDigits_eq_foldr, Nat.ofDigits_digits]
  have hread := parseDigits_digits hwrite _ hlt (hvalue.trans_le h)
  rw [hvalue] at hread
  cases hd : (Nat.digits radix n).reverse with
  | nil => exact absurd (List.reverse_eq_nil_iff.mp hd) (Nat.digits_ne_nil_iff_ne_zero.mpr hn)
  | cons d rest =>
    rw [hd] at hlt
    rw [List.map_cons, parseUnsigned, if_neg (hwrite d (hlt d List.mem_cons_self)).2,
      ← List.map_cons, ← hd, hread]

end Digits

variable {max : Nat}

variable {n : Nat}

theorem isDigit_of_mem_decimal {b : UInt8} (h : b ∈ decimal n) : isDigit b = true := by
  rw [decimal] at h
  split at h
  · rw [List.mem_singleton.mp h]
    rfl
  · obtain ⟨d, hd, rfl⟩ := List.mem_map.mp h
    exact (digitByte_facts d (Nat.digits_lt_base (by decide) (List.mem_reverse.mp hd))).2.1

theorem parseUnsigned_decimal (h : n ≤ max) :
    parseUnsigned 10 max (decimal n) = some n := by
  rw [decimal]
  split
  · next hn =>
    subst hn
    rfl
  · next hn =>
    exact parseUnsigned_digits (fun d hd => ⟨(digitByte_facts d hd).1, (digitByte_facts d hd).2.2⟩)
      (by decide) hn h

theorem parseHex_hexadecimal (h : n ≤ usizeMax) : parseHex (hexadecimal n) = some n := by
  rw [hexadecimal]
  split
  · next hn =>
    subst hn
    rfl
  · next hn =>
    exact parseUnsigned_digits (fun d hd => ⟨(hexDigit_facts d hd).1, (hexDigit_facts d hd).2.1⟩)
      (by decide) hn h

theorem hexadecimal_facts {b : UInt8} (h : b ∈ hexadecimal n) :
    b ≠ 0x3b ∧ b ≠ 0x0a ∧ b < 0x80 ∧ isAsciiWhitespace b = false := by
  rw [hexadecimal] at h
  split at h
  · rw [List.mem_singleton.mp h]
    decide
  · obtain ⟨d, hd, rfl⟩ := List.mem_map.mp h
    exact (hexDigit_facts d (Nat.digits_lt_base (by decide) (List.mem_reverse.mp hd))).2.2

theorem length_hexadecimal_le (h : n ≤ usizeMax) : (hexadecimal n).length ≤ 16 := by
  rw [hexadecimal]
  split
  · decide
  · rw [List.length_map, List.length_reverse, Nat.digits_length_le_iff (by decide)]
    exact Nat.lt_of_le_of_lt h (by decide)

theorem parseDigits_isSome {radix acc : Nat} (h : parseDigits radix max acc s = some n) :
    ∀ b ∈ s, (digitValue radix b).isSome := by
  induction s generalizing acc with
  | nil => simp
  | cons b rest ih =>
    grind [parseDigits]

/-- What is read as a number is one or more digits, with or without a `+` before them. -/
theorem parseUnsigned_eq_some {radix : Nat} (h : parseUnsigned radix max s = some n) :
    ∃ digits, digits ≠ [] ∧ (s = digits ∨ s = 0x2b :: digits) ∧
      ∀ b ∈ digits, (digitValue radix b).isSome := by
  cases s with
  | nil => cases h
  | cons b rest =>
    rw [parseUnsigned] at h
    split at h
    next hplus =>
        split at h
        · cases h
        · next hne => exact ⟨rest, hne, .inr (by rw [hplus]), parseDigits_isSome h⟩
    next => exact ⟨b :: rest, by simp, .inl rfl, parseDigits_isSome h⟩

variable (b : UInt8)

theorem digitValue_ten_isSome : (digitValue 10 b).isSome = isDigit b :=
  forall_byte (P := fun b => (digitValue 10 b).isSome = isDigit b) (by decide +kernel) b

end Starfish.Http
