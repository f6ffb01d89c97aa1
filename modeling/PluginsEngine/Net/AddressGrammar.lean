/-
  File:      PluginsEngine/Net/AddressGrammar.lean
  Subject:   WHICH TEXTS ARE ADDRESSES (SocketOperation::toAddrIpv4 against its grammar).

  An address is four decimal numbers up to 255 with dots between them, a colon and a decimal number
  up to 65535. The parser reads each number by `std::stoi`, which passes over blanks, takes a sign
  and stops at the first character that is no digit; and it narrows the number to 16 bits before it
  compares it with 255.

  * `IsAddress` -- the grammar; `IsTolerated` -- the texts the parser accepts, as a grammar too;
  * `stoi_eq_some_iff` -- what `std::stoi` reads, as blanks, a sign, digits and a rest;
  * `ipParts_eq_iff` -- what the loop over the dots cuts;
  * `toAddrIpv4_accepts_iff` -- the parser accepts exactly the tolerated texts;
  * `accepts_grammar_iff` -- so it is right exactly on the texts that are addresses or are not
    tolerated;
  * `accepts_a_wrapped_octet` -- 65537.2.3.4:80.
-/
import PluginsEngine.Net.AddressText

namespace PluginsEngine

namespace SocketOperation

/-! ## 1. The two grammars -/

/-- A decimal number of at most `max`: digits and nothing else. -/
def IsDecimal (max : Nat) (text : Name) : Prop :=
  text ≠ [] ∧ (∀ c ∈ text, c.isDigit = true) ∧ Nat.ofDigitChars 10 text 0 ≤ max

/-- Four texts with dots between them, a colon and a fifth. -/
def Dotted (octet port : Name → Prop) (text : Name) : Prop :=
  ∃ a b c d p, text = a ++ '.' :: (b ++ '.' :: (c ++ '.' :: (d ++ ':' :: p))) ∧
    octet a ∧ octet b ∧ octet c ∧ octet d ∧ port p

/-- **The grammar of addresses.** -/
def IsAddress (text : Name) : Prop := Dotted (IsDecimal 255) (IsDecimal 65535) text

/-- How a number may stand in a text for `std::stoi`. -/
structure NumberText (blanks sign digits rest : Name) : Prop where
  blanks : ∀ c ∈ blanks, isSpace c = true
  sign : sign = [] ∨ sign = ['+'] ∨ sign = ['-']
  digits_ne : digits ≠ []
  digits : ∀ c ∈ digits, c.isDigit = true
  rest : ∀ c, rest.head? = some c → c.isDigit = false

/-- The number that a sign and digits stand for. -/
def signedValue (sign digits : Name) : Int :=
  if sign = ['-'] then -(Nat.ofDigitChars 10 digits 0 : Int) else Nat.ofDigitChars 10 digits 0

/-- **What may stand for a number**: blanks, a sign, digits, and any rest; the value is an `int`. -/
def StandsFor (text : Name) (value : Int) : Prop :=
  ∃ blanks sign digits rest, text = blanks ++ (sign ++ (digits ++ rest)) ∧
    NumberText blanks sign digits rest ∧ signedValue sign digits = value ∧
    -2 ^ 31 ≤ value ∧ value < 2 ^ 31

/-- A text between the dots: its number is at most 255 modulo 2^16. -/
def IsToleratedOctet (text : Name) : Prop :=
  '.' ∉ text ∧ ':' ∉ text ∧ ∃ value, StandsFor text value ∧ value % 2 ^ 16 ≤ 255

def IsToleratedPort (text : Name) : Prop := ∃ value, StandsFor text value

/-- **The grammar the parser follows.** -/
def IsTolerated (text : Name) : Prop := Dotted IsToleratedOctet IsToleratedPort text

/-! ## 2. Numbers -/

/-- A list is the part that satisfies a predicate and a rest that does not begin with one. -/
theorem takeWhile_append_of_head {p : Char → Bool} {xs rest : Name} (hxs : ∀ c ∈ xs, p c = true)
    (hrest : ∀ c, rest.head? = some c → p c = false) :
    (xs ++ rest).takeWhile p = xs ∧ (xs ++ rest).dropWhile p = rest := by
  cases rest with
  | nil =>
    rw [List.append_nil]
    exact ⟨List.takeWhile_eq_self_iff.mpr hxs, List.dropWhile_eq_nil_iff.mpr hxs⟩
  | cons c rest =>
    have hc : ¬ p c = true := by
      rw [hrest c rfl]
      exact Bool.false_ne_true
    rw [List.takeWhile_append_of_pos hxs, List.dropWhile_append_of_pos hxs,
      List.takeWhile_cons_of_neg hc, List.dropWhile_cons_of_neg hc, List.append_nil]
    exact ⟨rfl, rfl⟩

/-- `takeSign` takes a sign or nothing. -/
theorem takeSign_cases (str : Name) :
    ∃ sign, str = sign ++ (takeSign str).2 ∧ (sign = [] ∨ sign = ['+'] ∨ sign = ['-']) ∧
      ((takeSign str).1 = true ↔ sign = ['-']) := by
  unfold takeSign
  cases str with
  | nil => exact ⟨[], rfl, Or.inl rfl, by simp⟩
  | cons c rest =>
    dsimp only
    by_cases hminus : c = '-'
    · rw [if_pos hminus]
      exact ⟨['-'], by rw [hminus]; rfl, Or.inr (Or.inr rfl), by simp⟩
    · rw [if_neg hminus]
      by_cases hplus : c = '+'
      · rw [if_pos hplus]
        exact ⟨['+'], by rw [hplus]; rfl, Or.inr (Or.inl rfl), by simp⟩
      · rw [if_neg hplus]
        exact ⟨[], rfl, Or.inl rfl, by simp⟩

/-- In front of a digit `takeSign` takes exactly the sign that is there. -/
theorem takeSign_append {sign : Name} {c : Char} {rest : Name}
    (hsign : sign = [] ∨ sign = ['+'] ∨ sign = ['-']) (hc : c.isDigit = true) :
    takeSign (sign ++ c :: rest) = (decide (sign = ['-']), c :: rest) := by
  rcases hsign with rfl | rfl | rfl
  · have hminus : c ≠ '-' := fun heq => by
      rw [heq] at hc
      cases hc
    have hplus : c ≠ '+' := fun heq => by
      rw [heq] at hc
      cases hc
    rw [List.nil_append, takeSign, if_neg hminus, if_neg hplus]
    rfl
  · rfl
  · rfl

/-- In front of a number there is no further blank. -/
theorem head_not_space {sign digits : Name} (rest : Name)
    (hsign : sign = [] ∨ sign = ['+'] ∨ sign = ['-']) (hne : digits ≠ [])
    (hdigits : ∀ c ∈ digits, c.isDigit = true) :
    ∀ c, (sign ++ (digits ++ rest)).head? = some c → isSpace c = false := by
  intro c hc
  cases digits with
  | nil => exact absurd rfl hne
  | cons x xs =>
    rcases hsign with rfl | rfl | rfl
    · cases hc
      exact isSpace_of_isDigit (hdigits _ List.mem_cons_self)
    · cases hc
      decide
    · cases hc
      decide

/-- Behind the leading elements that satisfy a predicate comes one that does not. -/
theorem head_dropWhile {p : Char → Bool} {xs : Name} {c : Char}
    (h : (xs.dropWhile p).head? = some c) : p c = false := by
  have hnot := List.head?_dropWhile_not p xs
  rw [h] at hnot
  exact hnot

/-- The value of a sign and digits, where `stoi` keeps the sign as a `bool`. -/
theorem signedValue_eq {sign : Name} {negative : Bool} (h : negative = true ↔ sign = ['-'])
    (digits : Name) :
    (if negative = true then -(Nat.ofDigitChars 10 digits 0 : Int)
      else (Nat.ofDigitChars 10 digits 0 : Int)) = signedValue sign digits := by
  unfold signedValue
  by_cases hsign : sign = ['-']
  · rw [if_pos hsign, if_pos (h.mpr hsign)]
  · rw [if_neg hsign, if_neg fun ht => hsign (h.mp ht)]

theorem stoi_eq {text behind : Name} {negative : Bool} {sign : Name}
    (hsign : takeSign (text.dropWhile isSpace) = (negative, behind))
    (hneg : negative = true ↔ sign = ['-']) :
    stoi text =
      if behind.takeWhile Char.isDigit = [] then none
      else if -2 ^ 31 ≤ signedValue sign (behind.takeWhile Char.isDigit) ∧
          signedValue sign (behind.takeWhile Char.isDigit) < 2 ^ 31 then
        some (signedValue sign (behind.takeWhile Char.isDigit))
      else none := by
  unfold stoi
  rw [hsign]
  dsimp only
  rw [signedValue_eq hneg]

/-- **What `std::stoi` reads.** -/
theorem stoi_eq_some_iff {text : Name} {value : Int} :
    stoi text = some value ↔ StandsFor text value := by
  constructor
  · intro h
    obtain ⟨sign, hstr, hsign, hneg⟩ := takeSign_cases (text.dropWhile isSpace)
    cases ht : takeSign (text.dropWhile isSpace) with
    | mk negative behind =>
      rw [ht] at hstr hneg
      dsimp only at hstr hneg
      rw [stoi_eq ht hneg] at h
      split at h
      · cases h
      · rename_i hne
        split at h
        · rename_i hrange
          cases h
          refine ⟨text.takeWhile isSpace, sign, behind.takeWhile Char.isDigit,
            behind.dropWhile Char.isDigit, ?_, ⟨fun c hc => List.mem_takeWhile_imp hc, hsign, hne,
              fun c hc => List.mem_takeWhile_imp hc, fun c hc => head_dropWhile hc⟩, rfl, hrange⟩
          rw [List.takeWhile_append_dropWhile, ← hstr, List.takeWhile_append_dropWhile]
        · cases h
  · intro h
    obtain ⟨blanks, sign, digits, rest, rfl, hnum, rfl, hrange⟩ := h
    have hbehind := (takeWhile_append_of_head hnum.blanks
      (head_not_space rest hnum.sign hnum.digits_ne hnum.digits)).2
    have htake := (takeWhile_append_of_head hnum.digits hnum.rest).1
    have ht : takeSign (sign ++ (digits ++ rest)) = (decide (sign = ['-']), digits ++ rest) := by
      cases digits with
      | nil => exact absurd rfl hnum.digits_ne
      | cons c cs => exact takeSign_append hnum.sign (hnum.digits c List.mem_cons_self)
    rw [← hbehind] at ht
    rw [stoi_eq ht decide_eq_true_iff, htake, if_neg hnum.digits_ne, if_pos hrange]

/-- A decimal number stands for its value. -/
theorem IsDecimal.standsFor {max : Nat} {text : Name} (h : IsDecimal max text)
    (hmax : max < 2 ^ 31) : StandsFor text (Nat.ofDigitChars 10 text 0 : Int) := by
  obtain ⟨hne, hdigits, hle⟩ := h
  refine ⟨[], [], text, [], ?_, ⟨?_, Or.inl rfl, hne, hdigits, ?_⟩, rfl, by omega, by omega⟩
  · rw [List.append_nil]
    rfl
  · exact fun c hc => absurd hc List.not_mem_nil
  · intro c hc
    cases hc

/-- What is no digit does not stand in a decimal number. -/
theorem IsDecimal.notMem {max : Nat} {text : Name} (h : IsDecimal max text) {x : Char}
    (hx : x.isDigit = false) : x ∉ text := by
  intro hmem
  rw [h.2.1 x hmem] at hx
  cases hx

theorem IsDecimal.isToleratedOctet {text : Name} (h : IsDecimal 255 text) :
    IsToleratedOctet text := by
  refine ⟨h.notMem rfl, h.notMem rfl, _, h.standsFor (by decide), ?_⟩
  have hle := h.2.2
  omega

/-- **Addresses are tolerated.** -/
theorem IsAddress.isTolerated {text : Name} (h : IsAddress text) : IsTolerated text := by
  obtain ⟨a, b, c, d, p, htext, ha, hb, hc, hd, hp⟩ := h
  exact ⟨a, b, c, d, p, htext, ha.isToleratedOctet, hb.isToleratedOctet, hc.isToleratedOctet,
    hd.isToleratedOctet, _, hp.standsFor (by decide)⟩

/-! ## 3. Parts -/

theorem ipPartsLoop_ne_nil (part text : Name) : ipPartsLoop part text ≠ [] := by
  induction text generalizing part with
  | nil => exact List.cons_ne_nil _ _
  | cons c rest ih =>
    rw [ipPartsLoop]
    split
    · exact List.cons_ne_nil _ _
    · exact ih _

/-- A text without a dot is one part; otherwise the first dot ends the first part. -/
theorem ipParts_cases (text : Name) :
    ('.' ∉ text ∧ ipParts text = [text]) ∨
      ∃ part rest, text = part ++ '.' :: rest ∧ '.' ∉ part ∧
        ipParts text = part :: ipParts rest := by
  by_cases hdot : '.' ∈ text
  · obtain ⟨part, rest, htext, hpart⟩ := List.eq_append_cons_of_mem hdot
    refine Or.inr ⟨part, rest, htext, hpart, ?_⟩
    rw [ipParts, htext, ipPartsLoop_dot hpart]
    rfl
  · exact Or.inl ⟨hdot, ipPartsLoop_last hdot []⟩

theorem ipParts_eq_singleton_iff {text a : Name} :
    ipParts text = [a] ↔ text = a ∧ '.' ∉ a := by
  constructor
  · intro h
    rcases ipParts_cases text with ⟨hdot, heq⟩ | ⟨part, rest, -, -, heq⟩
    · rw [heq] at h
      cases h
      exact ⟨rfl, hdot⟩
    · rw [heq] at h
      exact absurd (List.cons.inj h).2 (ipPartsLoop_ne_nil [] rest)
  · intro h
    obtain ⟨rfl, hdot⟩ := h
    exact ipPartsLoop_last hdot []

theorem ipParts_eq_cons_iff {text a b : Name} {bs : List Name} :
    ipParts text = a :: b :: bs ↔
      ∃ rest, text = a ++ '.' :: rest ∧ '.' ∉ a ∧ ipParts rest = b :: bs := by
  constructor
  · intro h
    rcases ipParts_cases text with ⟨-, heq⟩ | ⟨part, rest, htext, hpart, heq⟩
    · rw [heq] at h
      cases h
    · rw [heq] at h
      obtain ⟨rfl, hrest⟩ := List.cons.inj h
      exact ⟨rest, htext, hpart, hrest⟩
  · intro h
    obtain ⟨rest, rfl, hdot, hrest⟩ := h
    rw [ipParts, ipPartsLoop_dot hdot, List.nil_append]
    exact congrArg (a :: ·) hrest

/-- **The loop over the dots cuts a text into four parts** exactly if it has three dots. -/
theorem ipParts_eq_iff {host a b c d : Name} :
    ipParts host = [a, b, c, d] ↔
      host = a ++ '.' :: (b ++ '.' :: (c ++ '.' :: d)) ∧
        '.' ∉ a ∧ '.' ∉ b ∧ '.' ∉ c ∧ '.' ∉ d := by
  rw [ipParts_eq_cons_iff]
  constructor
  · intro h
    obtain ⟨rest, rfl, ha, hrest⟩ := h
    obtain ⟨rest', rfl, hb, hrest'⟩ := ipParts_eq_cons_iff.mp hrest
    obtain ⟨rest'', rfl, hc, hrest''⟩ := ipParts_eq_cons_iff.mp hrest'
    obtain ⟨rfl, hd⟩ := ipParts_eq_singleton_iff.mp hrest''
    exact ⟨rfl, ha, hb, hc, hd⟩
  · intro h
    obtain ⟨rfl, ha, hb, hc, hd⟩ := h
    exact ⟨_, rfl, ha, ipParts_eq_cons_iff.mpr ⟨_, rfl, hb, ipParts_eq_cons_iff.mpr
      ⟨_, rfl, hc, ipParts_eq_singleton_iff.mpr ⟨rfl, hd⟩⟩⟩⟩

/-- An entry of `addrArray` is taken if the number is at most 255 after it was narrowed. -/
theorem octet_isSome_iff {part : Name} :
    (octet part).isSome = true ↔ ∃ value, StandsFor part value ∧ value % 2 ^ 16 ≤ 255 := by
  have hnarrow : ∀ value : Int, (UInt16.ofInt value).toNat = (value % 2 ^ 16).toNat := by
    intro value
    rw [UInt16.ofInt, UInt16.toNat_ofNat']
    omega
  have hmax : (255 : UInt16).toNat = 255 := rfl
  unfold octet stringToInt
  cases hread : stoi part with
  | none =>
    constructor
    · intro h
      cases h
    · intro h
      obtain ⟨value, hvalue, -⟩ := h
      rw [stoi_eq_some_iff.mpr hvalue] at hread
      cases hread
  | some value =>
    rw [Option.map_some]
    dsimp only
    have hle : ¬ 255 < UInt16.ofInt value ↔ value % 2 ^ 16 ≤ 255 := by
      rw [UInt16.lt_iff_toNat_lt, hnarrow, hmax]
      omega
    constructor
    · intro h
      split at h
      · cases h
      · rename_i hnot
        exact ⟨value, stoi_eq_some_iff.mp hread, hle.mp hnot⟩
    · intro h
      obtain ⟨value', hvalue', hsmall⟩ := h
      rw [stoi_eq_some_iff.mpr hvalue'] at hread
      cases hread
      rw [if_neg (hle.mpr hsmall)]
      rfl

/-! ## 4. The parser -/

theorem length_eq_four {α : Type} {xs : List α} (h : xs.length = 4) :
    ∃ a b c d, xs = [a, b, c, d] := by
  match xs, h with
  | [a, b, c, d], _ => exact ⟨a, b, c, d, rfl⟩

/-- The loop over four entries fails at the first that is not taken. -/
theorem mapM_octet_isSome_iff {a b c d : Name} :
    ([a, b, c, d].mapM octet).isSome = true ↔
      (octet a).isSome = true ∧ (octet b).isSome = true ∧ (octet c).isSome = true ∧
        (octet d).isSome = true := by
  simp only [List.mapM_cons, List.mapM_nil]
  cases octet a <;> cases octet b <;> cases octet c <;> cases octet d <;> simp

/-- **The address part** is accepted if it is four octets. -/
theorem toAddrIpv4At_accepts_iff {host : Name} {port : UInt16} {addrIn : SocketAddr} :
    (toAddrIpv4At host port addrIn).1 = true ↔
      ∃ a b c d, ipParts host = [a, b, c, d] ∧ (octet a).isSome = true ∧
        (octet b).isSome = true ∧ (octet c).isSome = true ∧ (octet d).isSome = true := by
  unfold toAddrIpv4At
  dsimp only
  split
  · rename_i hlen
    constructor
    · intro h
      cases h
    · intro h
      obtain ⟨a, b, c, d, hparts, -⟩ := h
      rw [hparts] at hlen
      exact absurd rfl hlen
  · rename_i hlen
    have hiff : ((ipParts host).mapM octet).isSome = true ↔
        ∃ a b c d, ipParts host = [a, b, c, d] ∧ (octet a).isSome = true ∧
          (octet b).isSome = true ∧ (octet c).isSome = true ∧ (octet d).isSome = true := by
      constructor
      · intro h
        obtain ⟨a, b, c, d, hparts⟩ := length_eq_four (not_not.mp hlen)
        rw [hparts] at h
        exact ⟨a, b, c, d, hparts, mapM_octet_isSome_iff.mp h⟩
      · intro h
        obtain ⟨a, b, c, d, hparts, hoctets⟩ := h
        rw [hparts]
        exact mapM_octet_isSome_iff.mpr hoctets
    rw [← hiff]
    cases (ipParts host).mapM octet with
    | none => exact Iff.rfl
    | some addrArray => exact ⟨fun _ => rfl, fun _ => rfl⟩

/-- A text is cut at its first colon. -/
theorem toAddrIpv4_of_colon {host : Name} (h : ':' ∉ host) (port : Name) (addrIn : SocketAddr) :
    toAddrIpv4 (host ++ ':' :: port) addrIn =
      (stringToInt port).elim (false, addrIn) fun p => toAddrIpv4At host p addrIn := by
  obtain ⟨hbefore, hbehind⟩ := split_colon h port
  rw [toAddrIpv4, if_pos (List.mem_append_right _ List.mem_cons_self), hbefore, hbehind]
  cases stringToInt port with
  | none => rfl
  | some p => rfl

/-- **The parser accepts exactly the tolerated texts.** -/
theorem toAddrIpv4_accepts_iff {text : Name} {addrIn : SocketAddr} :
    (toAddrIpv4 text addrIn).1 = true ↔ IsTolerated text := by
  constructor
  · intro h
    by_cases hcolon : ':' ∈ text
    · obtain ⟨host, port, rfl, hhost⟩ := List.eq_append_cons_of_mem hcolon
      rw [toAddrIpv4_of_colon hhost] at h
      cases hport : stringToInt port with
      | none =>
        rw [hport] at h
        cases h
      | some p =>
        rw [hport] at h
        obtain ⟨a, b, c, d, hparts, ha, hb, hc, hd⟩ := toAddrIpv4At_accepts_iff.mp h
        obtain ⟨rfl, hda, hdb, hdc, hdd⟩ := ipParts_eq_iff.mp hparts
        simp only [List.mem_append, List.mem_cons, not_or] at hhost
        obtain ⟨value, hvalue, -⟩ := Option.map_eq_some_iff.mp hport
        refine ⟨a, b, c, d, port, ?_, ⟨hda, hhost.1, octet_isSome_iff.mp ha⟩,
          ⟨hdb, hhost.2.2.1, octet_isSome_iff.mp hb⟩,
          ⟨hdc, hhost.2.2.2.2.1, octet_isSome_iff.mp hc⟩,
          ⟨hdd, hhost.2.2.2.2.2.2, octet_isSome_iff.mp hd⟩, value, stoi_eq_some_iff.mp hvalue⟩
        simp only [List.append_assoc, List.cons_append]
    · rw [toAddrIpv4, if_neg hcolon] at h
      cases h
  · intro h
    obtain ⟨a, b, c, d, port, rfl, ha, hb, hc, hd, value, hvalue⟩ := h
    have htext : a ++ '.' :: (b ++ '.' :: (c ++ '.' :: (d ++ ':' :: port))) =
        (a ++ '.' :: (b ++ '.' :: (c ++ '.' :: d))) ++ ':' :: port := by
      simp only [List.append_assoc, List.cons_append]
    have hhost : ':' ∉ a ++ '.' :: (b ++ '.' :: (c ++ '.' :: d)) := by
      simp [ha.2.1, hb.2.1, hc.2.1, hd.2.1]
    have hport : stringToInt port = some (UInt16.ofInt value) := by
      rw [stringToInt, stoi_eq_some_iff.mpr hvalue, Option.map_some]
    rw [htext, toAddrIpv4_of_colon hhost, hport]
    exact toAddrIpv4At_accepts_iff.mpr ⟨a, b, c, d, ipParts_eq_iff.mpr
      ⟨rfl, ha.1, hb.1, hc.1, hd.1⟩, octet_isSome_iff.mpr ha.2.2, octet_isSome_iff.mpr hb.2.2,
      octet_isSome_iff.mpr hc.2.2, octet_isSome_iff.mpr hd.2.2⟩

/-- **A text that is not accepted leaves `addrIn` as it was.** -/
theorem toAddrIpv4_rejects {text : Name} {addrIn : SocketAddr}
    (h : (toAddrIpv4 text addrIn).1 = false) : (toAddrIpv4 text addrIn).2 = addrIn := by
  unfold toAddrIpv4 toAddrIpv4At at *
  split
  · rename_i hcolon
    rw [if_pos hcolon] at h
    split
    · rfl
    · rename_i port hport
      rw [hport] at h
      dsimp only at h ⊢
      split
      · rfl
      · rename_i hlen
        rw [if_neg hlen] at h
        split
        · rfl
        · rename_i addrArray harray
          rw [harray] at h
          cases h
  · rfl

/-! ## 5. The parser against the grammar -/

/-- **The law**: whatever `addrIn` was, the text is accepted exactly if it is an address, and
    `addrIn` is left as it was if it is not accepted. -/
def AcceptsGrammar (text : Name) : Prop :=
  ∀ addrIn, ((toAddrIpv4 text addrIn).1 = true ↔ IsAddress text) ∧
    ((toAddrIpv4 text addrIn).1 = false → (toAddrIpv4 text addrIn).2 = addrIn)

/-- **The parser is right exactly on the texts that are addresses or are not tolerated.** -/
theorem accepts_grammar_iff (text : Name) :
    AcceptsGrammar text ↔ (IsAddress text ∨ ¬ IsTolerated text) := by
  unfold AcceptsGrammar
  simp only [toAddrIpv4_accepts_iff]
  constructor
  · intro h
    by_cases htol : IsTolerated text
    · exact Or.inl ((h ⟨0, 0⟩).1.mp htol)
    · exact Or.inr htol
  · intro h addrIn
    refine ⟨⟨fun htol => h.resolve_right (not_not_intro htol), IsAddress.isTolerated⟩,
      toAddrIpv4_rejects⟩

/-- The text 65537.2.3.4:80. -/
def wrappedOctet : Name :=
  ['6', '5', '5', '3', '7', '.', '2', '.', '3', '.', '4', ':', '8', '0']

/-- **An octet that wraps is accepted**: 65537.2.3.4:80 is read as 1.2.3.4:80. -/
theorem accepts_a_wrapped_octet :
    toAddrIpv4 wrappedOctet ⟨0, 0⟩ = toAddrIpv4 (canonical 1 2 3 4 80) ⟨0, 0⟩ ∧
      ¬ AcceptsGrammar wrappedOctet := by
  refine ⟨by decide, fun h => ?_⟩
  have haccepted : (toAddrIpv4 wrappedOctet ⟨0, 0⟩).1 = true := by decide
  obtain ⟨a, b, c, d, p, htext, ha, hb, hc, hd, hp⟩ := ((h ⟨0, 0⟩).1).mp haccepted
  -- the grammar has no other way to cut this text
  have hlast : '.' ∉ d ++ ':' :: p := by
    simp [hd.notMem (x := '.') rfl, hp.notMem (x := '.') rfl]
  have hparts : ipParts wrappedOctet = [a, b, c, d ++ ':' :: p] :=
    ipParts_eq_iff.mpr ⟨htext, ha.notMem rfl, hb.notMem rfl, hc.notMem rfl, hlast⟩
  have hcut : ipParts wrappedOctet =
      [['6', '5', '5', '3', '7'], ['2'], ['3'], ['4', ':', '8', '0']] := by decide
  rw [hcut] at hparts
  obtain ⟨rfl, -⟩ := List.cons.inj hparts
  exact absurd ha.2.2 (by decide)

end SocketOperation

end PluginsEngine
