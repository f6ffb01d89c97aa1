/-
  File:      PluginsEngine/Net/AddressText.lean
  Subject:   ADDRESSES AS TEXT (net/tcp/socketOperation.cpp: toAddrIpv4, stringToInt, ipToString).

  `toAddrIpv4` puts the four numbers into a native 32-bit integer, the first one on top;
  `ipToString` reads the bytes of that integer in the order of the memory, lowest first. The host
  is little-endian.

  * `stoi`, `stringToInt`, `ipParts`, `toAddrIpv4At`, `toAddrIpv4` -- the parser;
  * `stoi_toDigits`, `ipPartsLoop_dot` -- the decimal digits of a number are read as that number,
    and a part without a dot as one part;
  * `toAddrIpv4_canonical` -- the canonical text of an address is parsed, with its first number on
    top; `ipToString_addr32` -- that address is printed with its last number first;
  * `roundTrips_iff_palindrome` -- so text and memory are right for the palindromes alone;
  * `address_comes_back_reversed` -- 1.2.3.4:80.
-/
import Mathlib.Data.List.TakeWhile
import PluginsEngine.Net.TcpServer

namespace PluginsEngine

namespace SocketOperation

/-! ## 1. The parser -/

/-- `isspace` in the C locale. -/
def isSpace (c : Char) : Bool := c = ' ' || ('\t' ≤ c && c ≤ '\x0d')

/-- The sign `strtol` takes, and what is behind it. -/
def takeSign (str : Name) : Bool × Name :=
  match str with
  | [] => (false, [])
  | c :: rest => if c = '-' then (true, rest) else if c = '+' then (false, rest) else (false, str)

/-- `std::stoi`: blanks, a sign and the digits up to the first other character; `none` when it
    throws, without a digit or outside the range of an `int`. -/
def stoi (str : Name) : Option Int :=
  let (negative, behind) := takeSign (str.dropWhile isSpace)
  let digits := behind.takeWhile Char.isDigit
  if digits = [] then none
  else
    let value : Int := Nat.ofDigitChars 10 digits 0
    let value := if negative then -value else value
    if -2 ^ 31 ≤ value ∧ value < 2 ^ 31 then some value else none

/-- `stringToInt<uint16_t>`: the conversion to `uint16_t` keeps the low 16 bits. -/
def stringToInt (str : Name) : Option UInt16 := (stoi str).map UInt16.ofInt

/-- The loop that cuts at the dots; `part` is what stands between `first` and the position. -/
def ipPartsLoop (part : Name) : Name → List Name
  | [] => [part]
  | c :: rest => if c = '.' then part :: ipPartsLoop [] rest else ipPartsLoop (part ++ [c]) rest

def ipParts (addr : Name) : List Name := ipPartsLoop [] addr

/-- One entry of `addrArray`. -/
def octet (part : Name) : Option UInt16 :=
  match stringToInt part with
  | none => none
  | some n => if 255 < n then none else some n

/-- `addr32`: each number is put behind those before it. -/
def addr32 (addrArray : List UInt16) : UInt32 :=
  addrArray.foldl (fun addr32 n => addr32 <<< 8 ||| n.toUInt32) 0

def htons (port : UInt16) : UInt16 := port <<< 8 ||| port >>> 8

/-- `toAddrIpv4` of an address and a port, and what `addrIn` is afterwards. -/
def toAddrIpv4At (addr : Name) (port : UInt16) (addrIn : SocketAddr) : Bool × SocketAddr :=
  let ip := ipParts addr
  if ip.length ≠ 4 then (false, addrIn)
  else
    match ip.mapM octet with
    | none => (false, addrIn)
    | some addrArray => (true, ⟨addr32 addrArray, htons port⟩)

/-- `toAddrIpv4` of a text. -/
def toAddrIpv4 (addrIp : Name) (addrIn : SocketAddr) : Bool × SocketAddr :=
  if ':' ∈ addrIp then
    match stringToInt (addrIp.dropWhile (· ≠ ':')).tail with
    | none => (false, addrIn)
    | some port => toAddrIpv4At (addrIp.takeWhile (· ≠ ':')) port addrIn
  else (false, addrIn)

/-- The canonical text of an address. -/
def canonical (a b c d : UInt8) (port : UInt16) : Name :=
  Nat.toDigits 10 a.toNat ++ '.' :: (Nat.toDigits 10 b.toNat ++ '.' ::
    (Nat.toDigits 10 c.toNat ++ '.' :: (Nat.toDigits 10 d.toNat ++ ':' ::
      Nat.toDigits 10 port.toNat)))

/-- **Text and memory of an address**: where the canonical text is parsed, the address prints as
    that text, and its bytes in memory are the four numbers. -/
def RoundTrips (a b c d : UInt8) (port : UInt16) (addrIn : SocketAddr) : Prop :=
  ∀ addr, toAddrIpv4 (canonical a b c d port) addrIn = (true, addr) →
    addr.ipToString = canonical a b c d port ∧
      (List.range 4).map addr.addrArray = [a.toNat, b.toNat, c.toNat, d.toNat]

/-! ## 2. Reading numbers -/

/-- A digit is no blank. -/
theorem isSpace_of_isDigit {c : Char} (h : c.isDigit) : isSpace c = false := by
  simp only [Char.isDigit, Bool.and_eq_true, decide_eq_true_eq, UInt32.le_iff_toNat_le] at h
  have h48 : ('0' : Char).val.toNat = 48 := rfl
  simp only [isSpace, Bool.or_eq_false_iff, decide_eq_false_iff_not, Bool.and_eq_false_iff,
    Char.le_def, UInt32.le_iff_toNat_le]
  have h32 : (' ' : Char).val.toNat = 32 := rfl
  have h13 : ('\x0d' : Char).val.toNat = 13 := rfl
  refine ⟨fun heq => ?_, Or.inr ?_⟩
  · rw [heq] at h
    omega
  · omega

/-- What is no digit does not stand among digits. -/
theorem notMem_toDigits {n : Nat} {x : Char} (hx : x.isDigit = false) :
    x ∉ Nat.toDigits 10 n := by
  intro hc
  rw [Nat.isDigit_of_mem_toDigits (by decide) (by decide) hc] at hx
  cases hx

/-- **The decimal digits of a number are read as that number.** -/
theorem stoi_toDigits {n : Nat} (h : n < 2 ^ 31) : stoi (Nat.toDigits 10 n) = some (n : Int) := by
  have hdigits : ∀ x ∈ Nat.toDigits 10 n, Char.isDigit x = true := fun x hx =>
    Nat.isDigit_of_mem_toDigits (by decide) (by decide) hx
  have hvalue : Nat.ofDigitChars 10 (Nat.toDigits 10 n) 0 = n := Nat.ofDigitChars_ten_toDigits
  cases hds : Nat.toDigits 10 n with
  | nil => exact absurd hds Nat.toDigits_ne_nil
  | cons c cs =>
    rw [hds] at hdigits hvalue
    have hc := hdigits c List.mem_cons_self
    have hblank : (c :: cs).dropWhile isSpace = c :: cs :=
      List.dropWhile_cons_of_neg (by rw [isSpace_of_isDigit hc]; decide)
    have hminus : c ≠ '-' := fun heq => by rw [heq] at hc; cases hc
    have hplus : c ≠ '+' := fun heq => by rw [heq] at hc; cases hc
    have hsign : takeSign (c :: cs) = (false, c :: cs) := by
      simp only [takeSign, if_neg hminus, if_neg hplus]
    have hall : (c :: cs).takeWhile Char.isDigit = c :: cs :=
      List.takeWhile_eq_self_iff.mpr hdigits
    simp only [stoi, hblank, hsign, hall, hvalue, reduceCtorEq, if_false, Bool.false_eq_true]
    rw [if_pos (by omega)]

theorem stringToInt_toDigits (port : UInt16) :
    stringToInt (Nat.toDigits 10 port.toNat) = some port := by
  have hlt := port.toNat_lt
  have hlow : ((port.toNat : Int) % 2 ^ 16).toNat = port.toNat := by omega
  rw [stringToInt, stoi_toDigits (by omega), Option.map_some, UInt16.ofInt, hlow,
    UInt16.ofNat_toNat]

theorem octet_toDigits (a : UInt8) : octet (Nat.toDigits 10 a.toNat) = some a.toUInt16 := by
  have hlt := a.toNat_lt
  have hnot : ¬ 255 < a.toUInt16 := by
    rw [UInt16.lt_iff_toNat_lt, UInt8.toNat_toUInt16]
    have : (255 : UInt16).toNat = 255 := rfl
    omega
  have hread : stringToInt (Nat.toDigits 10 a.toNat) = some a.toUInt16 := by
    rw [← UInt8.toNat_toUInt16]
    exact stringToInt_toDigits _
  simp only [octet, hread, if_neg hnot]

/-! ## 3. Cutting the text -/

/-- A part without a dot ends at the dot behind it. -/
theorem ipPartsLoop_dot {s : Name} (h : '.' ∉ s) (part rest : Name) :
    ipPartsLoop part (s ++ '.' :: rest) = (part ++ s) :: ipPartsLoop [] rest := by
  induction s generalizing part with
  | nil => rw [List.nil_append, ipPartsLoop, if_pos rfl, List.append_nil]
  | cons c s ih =>
    rw [List.mem_cons, not_or] at h
    rw [List.cons_append, ipPartsLoop, if_neg (Ne.symm h.1), ih h.2, List.append_assoc]
    rfl

theorem ipPartsLoop_last {s : Name} (h : '.' ∉ s) (part : Name) :
    ipPartsLoop part s = [part ++ s] := by
  induction s generalizing part with
  | nil => rw [ipPartsLoop, List.append_nil]
  | cons c s ih =>
    rw [List.mem_cons, not_or] at h
    rw [ipPartsLoop, if_neg (Ne.symm h.1), ih h.2, List.append_assoc]
    rfl

/-- The first colon splits a text. -/
theorem split_colon {s : Name} (h : ':' ∉ s) (rest : Name) :
    (s ++ ':' :: rest).takeWhile (· ≠ ':') = s ∧
      ((s ++ ':' :: rest).dropWhile (· ≠ ':')).tail = rest := by
  have hs : ∀ x ∈ s, decide (x ≠ ':') = true := fun x hx =>
    decide_eq_true fun heq => h (heq ▸ hx)
  refine ⟨?_, ?_⟩
  · rw [List.takeWhile_append_of_pos hs, List.takeWhile_cons_of_neg (by simp), List.append_nil]
  · rw [List.dropWhile_append_of_pos hs, List.dropWhile_cons_of_neg (by simp), List.tail_cons]

/-! ## 4. Bytes -/

/-- Putting a byte behind a number of at most three. -/
theorem toNat_shiftLeft_or {x : UInt32} {n : UInt16} (hx : x.toNat < 2 ^ 24)
    (hn : n.toNat < 2 ^ 8) : (x <<< 8 ||| n.toUInt32).toNat = x.toNat * 2 ^ 8 + n.toNat := by
  have hshift : (x <<< 8).toNat = x.toNat <<< 8 := by
    rw [UInt32.toNat_shiftLeft]
    show x.toNat <<< 8 % 2 ^ 32 = _
    rw [Nat.shiftLeft_eq]
    omega
  rw [UInt32.toNat_or, hshift, UInt16.toNat_toUInt32, ← Nat.shiftLeft_add_eq_or_of_lt hn,
    Nat.shiftLeft_eq]

/-- **The first number is on top.** -/
theorem toNat_addr32 (a b c d : UInt8) :
    (addr32 [a.toUInt16, b.toUInt16, c.toUInt16, d.toUInt16]).toNat =
      ((a.toNat * 2 ^ 8 + b.toNat) * 2 ^ 8 + c.toNat) * 2 ^ 8 + d.toNat := by
  have ha := a.toNat_lt
  have hb := b.toNat_lt
  have hc := c.toNat_lt
  have hd := d.toNat_lt
  simp only [addr32, List.foldl_cons, List.foldl_nil]
  have h₁ : ((0 : UInt32) <<< 8 ||| a.toUInt16.toUInt32).toNat = a.toNat := by
    rw [toNat_shiftLeft_or (by decide) (by rwa [UInt8.toNat_toUInt16]), UInt8.toNat_toUInt16]
    exact (Nat.zero_mul _).symm ▸ Nat.zero_add _
  have h₂ := toNat_shiftLeft_or (x := (0 : UInt32) <<< 8 ||| a.toUInt16.toUInt32)
    (n := b.toUInt16) (by omega) (by rwa [UInt8.toNat_toUInt16])
  rw [h₁, UInt8.toNat_toUInt16] at h₂
  have h₃ := toNat_shiftLeft_or (n := c.toUInt16)
    (x := ((0 : UInt32) <<< 8 ||| a.toUInt16.toUInt32) <<< 8 ||| b.toUInt16.toUInt32)
    (by omega) (by rwa [UInt8.toNat_toUInt16])
  rw [h₂, UInt8.toNat_toUInt16] at h₃
  rw [toNat_shiftLeft_or (by omega) (by rwa [UInt8.toNat_toUInt16]), h₃, UInt8.toNat_toUInt16]

/-- The bytes in memory are the numbers from the last to the first. -/
theorem addrArray_addr32 (a b c d : UInt8) (port : UInt16) :
    (List.range 4).map (SocketAddr.mk
        (addr32 [a.toUInt16, b.toUInt16, c.toUInt16, d.toUInt16]) port).addrArray =
      [d.toNat, c.toNat, b.toNat, a.toNat] := by
  have ha := a.toNat_lt
  have hb := b.toNat_lt
  have hc := c.toNat_lt
  have hd := d.toNat_lt
  have hbyte : ∀ m i : Nat, m >>> i &&& 0xff = m / 2 ^ i % 2 ^ 8 := fun m i => by
    rw [Nat.shiftRight_eq_div_pow]
    exact Nat.and_two_pow_sub_one_eq_mod _ 8
  show [_, _, _, _] = _
  simp only [SocketAddr.addrArray, hbyte, toNat_addr32, List.cons.injEq, and_true]
  omega

/-- Swapping the two bytes of a number of 16 bits. -/
theorem swap_eq {n : Nat} (h : n < 2 ^ 16) :
    n <<< 8 &&& 0x00ffff ||| n >>> 8 = n % 2 ^ 8 * 2 ^ 8 + n / 2 ^ 8 := by
  have hlow : n <<< 8 &&& 0x00ffff = (n % 2 ^ 8) <<< 8 := by
    rw [show (0x00ffff : Nat) = 2 ^ 16 - 1 from rfl, Nat.and_two_pow_sub_one_eq_mod,
      Nat.shiftLeft_eq, Nat.shiftLeft_eq]
    omega
  rw [hlow, Nat.shiftRight_eq_div_pow, ← Nat.shiftLeft_add_eq_or_of_lt (by omega),
    Nat.shiftLeft_eq]

theorem toNat_htons (port : UInt16) :
    (htons port).toNat = port.toNat % 2 ^ 8 * 2 ^ 8 + port.toNat / 2 ^ 8 := by
  rw [← swap_eq port.toNat_lt, htons, UInt16.toNat_or, UInt16.toNat_shiftLeft,
    UInt16.toNat_shiftRight]
  show port.toNat <<< 8 % 2 ^ 16 ||| port.toNat >>> 8 = _
  rw [← Nat.and_two_pow_sub_one_eq_mod]

/-- `ipToString` prints the port it was given. -/
theorem port_htons (port : UInt16) :
    (htons port).toNat <<< 8 &&& 0x00ffff ||| (htons port).toNat >>> 8 = port.toNat := by
  have hlt := port.toNat_lt
  rw [swap_eq (htons port).toNat_lt, toNat_htons]
  omega

/-! ## 5. The round trip -/

/-- **The address of a text is printed backwards.** -/
theorem ipToString_addr32 (a b c d : UInt8) (port : UInt16) :
    (SocketAddr.mk (addr32 [a.toUInt16, b.toUInt16, c.toUInt16, d.toUInt16])
      (htons port)).ipToString = canonical d c b a port := by
  have hbytes := addrArray_addr32 a b c d (htons port)
  simp only [List.range_succ_eq_map, List.range_zero, List.map_cons, List.map_nil,
    List.cons.injEq, and_true] at hbytes
  obtain ⟨h₀, h₁, h₂, h₃⟩ := hbytes
  simp only [SocketAddr.ipToString, port_htons, List.range_succ_eq_map, List.range_zero,
    List.map_cons, List.map_nil, List.flatMap_cons, List.flatMap_nil, h₀, h₁, h₂, h₃]
  simp [canonical]

/-- **The canonical text is parsed**, whatever `addrIn` was. -/
theorem toAddrIpv4_canonical (a b c d : UInt8) (port : UInt16) (addrIn : SocketAddr) :
    toAddrIpv4 (canonical a b c d port) addrIn =
      (true, ⟨addr32 [a.toUInt16, b.toUInt16, c.toUInt16, d.toUInt16], htons port⟩) := by
  have hdot : ∀ n : UInt8, '.' ∉ Nat.toDigits 10 n.toNat := fun n => notMem_toDigits rfl
  have hcolon : ∀ n : UInt8, ':' ∉ Nat.toDigits 10 n.toNat := fun n => notMem_toDigits rfl
  set host : Name := Nat.toDigits 10 a.toNat ++ '.' :: (Nat.toDigits 10 b.toNat ++ '.' ::
    (Nat.toDigits 10 c.toNat ++ '.' :: Nat.toDigits 10 d.toNat)) with hhost
  have htext : canonical a b c d port = host ++ ':' :: Nat.toDigits 10 port.toNat := by
    simp only [canonical, hhost, List.append_assoc, List.cons_append]
  have hnone : ':' ∉ host := by
    simp [hhost, hcolon]
  obtain ⟨hbefore, hbehind⟩ := split_colon hnone (Nat.toDigits 10 port.toNat)
  have hparts : ipParts host = [Nat.toDigits 10 a.toNat, Nat.toDigits 10 b.toNat,
      Nat.toDigits 10 c.toNat, Nat.toDigits 10 d.toNat] := by
    simp only [ipParts, hhost, ipPartsLoop_dot (hdot _), ipPartsLoop_last (hdot _),
      List.nil_append]
  have hmem : ':' ∈ host ++ ':' :: Nat.toDigits 10 port.toNat :=
    List.mem_append_right _ List.mem_cons_self
  rw [htext, toAddrIpv4, if_pos hmem]
  simp only [hbehind, hbefore, stringToInt_toDigits]
  rw [toAddrIpv4At, hparts]
  simp [octet_toDigits]

/-- **Text and memory agree for the palindromes alone.** For all four numbers, every port and
    whatever `addrIn` was: the address that is parsed from the canonical text prints as that text
    and has the numbers as its bytes, if and only if the numbers are the same backwards. -/
theorem roundTrips_iff_palindrome (a b c d : UInt8) (port : UInt16) (addrIn : SocketAddr) :
    RoundTrips a b c d port addrIn ↔ a = d ∧ b = c := by
  constructor
  · intro h
    have hbytes := (h _ (toAddrIpv4_canonical a b c d port addrIn)).2
    rw [addrArray_addr32] at hbytes
    simp only [List.cons.injEq, and_true] at hbytes
    exact ⟨UInt8.toNat_inj.mp hbytes.1.symm, UInt8.toNat_inj.mp hbytes.2.1.symm⟩
  · intro h addr haddr
    obtain ⟨rfl, rfl⟩ := h
    rw [toAddrIpv4_canonical] at haddr
    obtain ⟨-, rfl⟩ := Prod.mk.inj haddr
    exact ⟨ipToString_addr32 a b b a port, addrArray_addr32 a b b a _⟩

/-- **An address comes back reversed**: the text 1.2.3.4:80 is parsed to an address that prints as
    4.3.2.1:80. -/
theorem address_comes_back_reversed :
    canonical 1 2 3 4 80 = ['1', '.', '2', '.', '3', '.', '4', ':', '8', '0'] ∧
      (toAddrIpv4 (canonical 1 2 3 4 80) ⟨0, 0⟩).2.ipToString =
        ['4', '.', '3', '.', '2', '.', '1', ':', '8', '0'] ∧
      ¬ RoundTrips 1 2 3 4 80 ⟨0, 0⟩ := by
  have hprinted : (toAddrIpv4 (canonical 1 2 3 4 80) ⟨0, 0⟩).2.ipToString =
      canonical 4 3 2 1 80 := by
    rw [toAddrIpv4_canonical]
    exact ipToString_addr32 1 2 3 4 80
  refine ⟨by decide, hprinted.trans (by decide), fun h => ?_⟩
  have hbytes := (h _ (toAddrIpv4_canonical 1 2 3 4 80 ⟨0, 0⟩)).2
  rw [addrArray_addr32] at hbytes
  exact absurd hbytes (by decide)

end SocketOperation

end PluginsEngine
