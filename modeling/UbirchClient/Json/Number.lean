import UbirchClient.Go.Basic
import Mathlib.Algebra.Order.Group.Nat
import Mathlib.Data.Int.Log
import Mathlib.Data.Rat.Cast.Order
import Mathlib.Data.Rat.Floor
import Mathlib.Tactic.FieldSimp
import Mathlib.Tactic.GCongr
import Mathlib.Tactic.Positivity.Basic
import Mathlib.Tactic.Ring
set_option autoImplicit false

/-!
# JSON numbers: literals, `float64`, `ParseFloat` and the encoder's formatting

WHAT THIS FILE IS FOR.  `json.Unmarshal` into `interface{}` turns every number
literal into a `float64` with `strconv.ParseFloat(s, 64)`, and the encoder writes a
`float64` back "as if by ES6 number to string conversion": the shortest decimal that
parses back to the same value, in `%f` style unless the magnitude is below `1e-6`
or at least `1e21`, where it switches to `%e`.  Both directions are modelled here,
and `parseFloat_formatFloat` proves the encoder's output parses back to the value it
was formatted from.  That fact carries the whole canonicalisation argument: numbers
are the only place where decoding loses information.

THE CARRIERS.  A number literal is a `NumLit`, the RFC 8259 production
`[ minus ] int [ frac ] [ exp ]` with every spelling choice kept (leading `-`, the
digits, `e` or `E`, the exponent's sign), so that printing it back gives the same
bytes; its parts carry their well-formedness (a non-empty integer part with no
leading zero, a non-empty exponent), so a malformed literal cannot be built.
A `Float64` is the three IEEE 754 fields; the biased exponent ranges over
`Fin 2047`, so infinities and NaNs, which `ParseFloat` reports as range errors and
the decoder never produces, are not values of the type.

`ParseFloat` is correctly rounded (round half to even), returns a range error when
the magnitude rounds to `2^1024` or beyond, and flushes to zero or a subnormal below
the normal range without error.  The model computes exactly that on exact
rationals: `roundToFloat a b` rounds `a / b`.

The shortest digits are found by the property that defines them: from the largest
decimal exponent down, the first position `k` at which a multiple of `10^k` rounds
back to the value; at that position the candidate nearest the exact value is kept
(ties to even).  This is what `strconv`'s shortest formatting returns.  The exact
decimal expansion, which always rounds back, closes the search.
-/

namespace UbirchClient.Json

open UbirchClient.Go

/-! ## Digits -/

/-- A decimal digit. -/
abbrev Digit := Fin 10

/-- The value of a digit string, most significant digit first. -/
def digitsVal (ds : List Digit) : Nat := ds.foldl (fun acc d => 10 * acc + d.val) 0

theorem foldl_digits (ds : List Digit) (a : Nat) :
    ds.foldl (fun acc d => 10 * acc + d.val) a = a * 10 ^ ds.length + digitsVal ds := by
  induction ds generalizing a with
  | nil => simp [digitsVal]
  | cons d ds ih =>
    have h0 : digitsVal (d :: ds) = (10 * 0 + d.val) * 10 ^ ds.length + digitsVal ds := ih _
    rw [List.foldl_cons, ih, h0, List.length_cons, Nat.pow_succ]
    ring

theorem digitsVal_append (xs ys : List Digit) :
    digitsVal (xs ++ ys) = digitsVal xs * 10 ^ ys.length + digitsVal ys := by
  rw [digitsVal, List.foldl_append, foldl_digits]; rfl

@[simp] theorem digitsVal_nil : digitsVal [] = 0 := rfl

@[simp] theorem digitsVal_singleton (d : Digit) : digitsVal [d] = d.val := by
  simp [digitsVal]

theorem digitsVal_cons (d : Digit) (ds : List Digit) :
    digitsVal (d :: ds) = d.val * 10 ^ ds.length + digitsVal ds := by
  rw [← List.singleton_append, digitsVal_append]; simp [digitsVal]

/-- Zeros in front do not change the value. -/
theorem digitsVal_zeros_append (k : Nat) (ds : List Digit) :
    digitsVal (List.replicate k 0 ++ ds) = digitsVal ds := by
  induction k with
  | zero => rfl
  | succ k ih => rw [List.replicate_succ, List.cons_append, digitsVal_cons, ih]; simp

/-- The decimal digits of `n`, most significant first, with no leading zero (`[0]`
for zero).  `go` divides by ten until one digit is left; `n + 1` steps always suffice. -/
def natDigits (n : Nat) : List Digit := go (n + 1) n []
where
  go : Nat → Nat → List Digit → List Digit
    | 0, _, acc => acc
    | fuel + 1, n, acc =>
      if h : n < 10 then ⟨n, h⟩ :: acc
      else go fuel (n / 10) (⟨n % 10, Nat.mod_lt _ (by decide)⟩ :: acc)

theorem natDigits_go (fuel n : Nat) (acc : List Digit) (h : n < fuel) :
    digitsVal (natDigits.go fuel n acc) = n * 10 ^ acc.length + digitsVal acc ∧
    ∃ d ds, natDigits.go fuel n acc = d :: ds ∧ (0 < n → d ≠ 0) := by
  induction fuel generalizing n acc with
  | zero => omega
  | succ fuel ih =>
    unfold natDigits.go
    split
    · rename_i hn
      refine ⟨by rw [digitsVal_cons], _, _, rfl, fun hpos e => ?_⟩
      simp only [Fin.ext_iff, Fin.val_zero] at e; omega
    · rename_i hn
      obtain ⟨hv, d, ds, he, hd⟩ := ih (n / 10) (⟨n % 10, Nat.mod_lt _ (by decide)⟩ :: acc) (by omega)
      refine ⟨?_, d, ds, he, fun _ => hd (by omega)⟩
      rw [hv, digitsVal_cons, List.length_cons, Nat.pow_succ]
      conv_rhs => rw [← Nat.div_add_mod n 10]
      ring

@[simp] theorem digitsVal_natDigits (n : Nat) : digitsVal (natDigits n) = n := by
  simpa using (natDigits_go (n + 1) n [] (by omega)).1

theorem natDigits_cons (n : Nat) : ∃ d ds, natDigits n = d :: ds ∧ (0 < n → d ≠ 0) :=
  (natDigits_go (n + 1) n [] (by omega)).2

theorem natDigits_wf (n : Nat) : natDigits n = [0] ∨ ∃ d ds, natDigits n = d :: ds ∧ d ≠ 0 := by
  rcases Nat.eq_zero_or_pos n with rfl | hn
  · exact .inl rfl
  · obtain ⟨d, ds, h, hd⟩ := natDigits_cons n
    exact .inr ⟨d, ds, h, hd hn⟩

theorem length_natDigits_le {n j : Nat} (hj : 0 < j) (hn : n < 10 ^ j) :
    (natDigits n).length ≤ j := by
  rcases natDigits_wf n with h | ⟨d, ds, h, hd⟩
  · rw [h]; exact hj
  · have hv := digitsVal_natDigits n
    rw [h, digitsVal_cons] at hv
    have : 10 ^ ds.length ≤ n := by
      rw [← hv]; have : 1 ≤ d.val := Nat.pos_of_ne_zero (fun e => hd (Fin.ext e))
      nlinarith [Nat.zero_le (digitsVal ds)]
    have := (Nat.pow_lt_pow_iff_right (by decide : 1 < 10)).1 (lt_of_le_of_lt this hn)
    rw [h, List.length_cons]; omega

/-! ## Literals -/

/-- The integer part `0 / ( digit1-9 *DIGIT )`: non-empty, with a leading zero only
as the single digit `0`. -/
structure IntDigits where
  digits : List Digit
  wf : digits = [0] ∨ ∃ d ds, digits = d :: ds ∧ d ≠ 0
  deriving DecidableEq

/-- The sign of an exponent as spelled: absent, `+` or `-`. -/
inductive ExpSign where
  | none
  | plus
  | minus
  deriving DecidableEq, Repr

/-- The exponent part `e [ minus / plus ] 1*DIGIT`, with the case of the `e` kept. -/
structure ExpPart where
  upper : Bool
  sign : ExpSign
  digits : List Digit
  ne_nil : digits ≠ []
  deriving DecidableEq

/-- A JSON number literal, spelling included. `frac = []` is a literal with no
fraction part (a `.` must be followed by a digit). -/
structure NumLit where
  neg : Bool
  int : IntDigits
  frac : List Digit
  exp : Option ExpPart
  deriving DecidableEq

/-- A single digit is a well-formed integer part. -/
def IntDigits.single (d : Digit) : IntDigits where
  digits := [d]
  wf := by
    by_cases h : d = 0
    · exact .inl (by rw [h])
    · exact .inr ⟨d, [], rfl, h⟩

/-- The digits of a natural number as an integer part. -/
def IntDigits.ofNat (n : Nat) : IntDigits := ⟨natDigits n, natDigits_wf n⟩

/-- The ASCII byte of a digit. -/
def digitByte (d : Digit) : UInt8 := UInt8.ofNat (0x30 + d.val)

/-- The bytes of an exponent's sign. -/
def ExpSign.emit : ExpSign → GoString
  | .none => []
  | .plus => [0x2B]
  | .minus => [0x2D]

/-- The bytes of the exponent part. -/
def ExpPart.emit (e : ExpPart) : GoString :=
  (if e.upper then 0x45 else 0x65) :: (e.sign.emit ++ e.digits.map digitByte)

/-- The bytes of a literal, exactly as spelled. -/
def NumLit.emit (n : NumLit) : GoString :=
  (if n.neg then [0x2D] else []) ++ n.int.digits.map digitByte ++
    (if n.frac = [] then [] else 0x2E :: n.frac.map digitByte) ++
    (n.exp.map ExpPart.emit).getD []

/-- The signed value of the exponent part. -/
def ExpPart.value (e : ExpPart) : Int :=
  match e.sign with
  | .minus => -(digitsVal e.digits : Int)
  | _ => digitsVal e.digits

/-- All digits of the literal as one integer: the value is `mantissa * 10^exponent`. -/
def NumLit.mantissa (n : NumLit) : Nat := digitsVal (n.int.digits ++ n.frac)

/-- The power of ten the mantissa is scaled by. -/
def NumLit.exponent (n : NumLit) : Int := ((n.exp.map ExpPart.value).getD 0) - n.frac.length

/-- `c * 10^k` as a fraction `(numerator, denominator)` of naturals. -/
def magnitudePair (c : Nat) (k : Int) : Nat × Nat :=
  if 0 ≤ k then (c * 10 ^ k.toNat, 1) else (c, 10 ^ (-k).toNat)

/-- The exact magnitude of a literal, as a fraction. -/
def NumLit.magnitude (n : NumLit) : Nat × Nat := magnitudePair n.mantissa n.exponent

theorem magnitudePair_den_pos (c : Nat) (k : Int) : 0 < (magnitudePair c k).2 := by
  unfold magnitudePair
  split
  · exact Nat.one_pos
  · exact Nat.pos_pow_of_pos _ (by decide)

/-! ## `float64` -/

/-- A finite IEEE 754 binary64 value by its fields: sign, biased exponent
(`0` for zero and subnormals) and the 52 fraction bits. -/
structure Float64 where
  neg : Bool
  bexp : Fin 2047
  frac : Fin (2 ^ 52)
  deriving DecidableEq, Repr

namespace Float64

/-- The integer significand: the fraction bits, with the hidden bit for normals. -/
def mant (f : Float64) : Nat := if f.bexp.val = 0 then f.frac.val else 2 ^ 52 + f.frac.val

/-- The power of two the significand is scaled by. -/
def exp2 (f : Float64) : Int := (if f.bexp.val = 0 then 1 else (f.bexp.val : Int)) - 1075

/-- Positive or negative zero. -/
def isZero (f : Float64) : Bool := f.bexp.val = 0 && f.frac.val = 0

/-- The exact magnitude `mant * 2^exp2`, as a fraction. -/
def magnitude (f : Float64) : Nat × Nat :=
  if 0 ≤ f.exp2 then (f.mant * 2 ^ f.exp2.toNat, 1) else (f.mant, 2 ^ (-f.exp2).toNat)

end Float64

/-! ## Correct rounding -/

/-- The number of bits of `n` (`0` for zero); `go` halves `n` with `n` steps of fuel. -/
def bitLength (n : Nat) : Nat := go n n
where
  go : Nat → Nat → Nat
    | 0, _ => 0
    | fuel + 1, n => if n = 0 then 0 else go fuel (n / 2) + 1

theorem bitLength_go (fuel n : Nat) (h : n ≤ fuel) (hn : 0 < n) :
    2 ^ (bitLength.go fuel n - 1) ≤ n ∧ n < 2 ^ bitLength.go fuel n ∧ 0 < bitLength.go fuel n := by
  induction fuel generalizing n with
  | zero => omega
  | succ fuel ih =>
    rw [bitLength.go, if_neg (by omega)]
    rcases Nat.lt_or_ge n 2 with h2 | h2
    · have hg : bitLength.go fuel (n / 2) = 0 := by
        rw [show n / 2 = 0 by omega]; cases fuel <;> rfl
      rw [hg]; omega
    · obtain ⟨h1, h2', h3⟩ := ih (n / 2) (by omega) (by omega)
      refine ⟨?_, ?_, by omega⟩
      · rw [show bitLength.go fuel (n / 2) + 1 - 1 = (bitLength.go fuel (n / 2) - 1) + 1 by omega,
          Nat.pow_succ]; omega
      · rw [Nat.pow_succ]; omega

theorem bitLength_spec {n : Nat} (hn : 0 < n) :
    2 ^ (bitLength n - 1) ≤ n ∧ n < 2 ^ bitLength n ∧ 0 < bitLength n :=
  bitLength_go n n le_rfl hn

/-- `a / b >= 2^t`, for an integer `t`. -/
def geTwoPow (a b : Nat) (t : Int) : Prop :=
  if 0 ≤ t then b * 2 ^ t.toNat ≤ a else b ≤ a * 2 ^ (-t).toNat

instance (a b : Nat) (t : Int) : Decidable (geTwoPow a b t) := by
  unfold geTwoPow; infer_instance

/-- `⌊log₂ (a / b)⌋`: the bit lengths fix it up to one. -/
def floorLog2 (a b : Nat) : Int :=
  let t : Int := (bitLength a : Int) - bitLength b
  if geTwoPow a b t then t else t - 1

/-- Round half to even of `a / b`. -/
def roundHalfEven (a b : Nat) : Nat :=
  if 2 * (a % b) < b then a / b
  else if b < 2 * (a % b) then a / b + 1
  else if a / b % 2 = 0 then a / b else a / b + 1

/-- `a / 2^e` as a fraction. -/
def divTwoPow (a b : Nat) (e : Int) : Nat × Nat :=
  if 0 ≤ e then (a, b * 2 ^ e.toNat) else (a * 2 ^ (-e).toNat, b)

/-- The biased exponent and fraction bits of the float nearest to `a / b` (ties to
even), or `none` when that magnitude rounds to `2^1024` or beyond.  The
significand is scaled to 53 bits, or fewer at the subnormal exponent `-1074`;
a carry out of the rounding (`2^53`) moves to the next exponent; the fraction field
is the significand's low 52 bits, as `floatBits` stores it. -/
def roundToFloat (a b : Nat) : Option (Fin 2047 × Fin (2 ^ 52)) :=
  if a = 0 then some (0, 0)
  else
    let e0 : Int := max (floorLog2 a b - 52) (-1074)
    let m0 := roundHalfEven (divTwoPow a b e0).1 (divTwoPow a b e0).2
    let m := if m0 = 2 ^ 53 then 2 ^ 52 else m0
    let e := if m0 = 2 ^ 53 then e0 + 1 else e0
    if h : e + 1075 ≤ 2046 then
      some (if m < 2 ^ 52 then 0 else ⟨(e + 1075).toNat, by omega⟩,
        ⟨m % 2 ^ 52, Nat.mod_lt _ (by decide)⟩)
    else none

/-- `strconv.ParseFloat(s, 64)` on the text of a JSON number literal: the sign is
applied to the correctly rounded magnitude, so `-0` is negative zero. -/
def parseFloat (n : NumLit) : Option Float64 :=
  (roundToFloat n.magnitude.1 n.magnitude.2).map fun (e, f) => ⟨n.neg, e, f⟩

/-! ## Rounding, read in the rationals -/

theorem geTwoPow_iff {a b : Nat} (hb : 0 < b) (t : Int) :
    geTwoPow a b t ↔ (2 : ℚ) ^ t ≤ (a : ℚ) / b := by
  have hb' : (0 : ℚ) < b := by exact_mod_cast hb
  unfold geTwoPow
  split
  · rename_i ht
    obtain ⟨n, rfl⟩ := Int.eq_ofNat_of_zero_le ht
    rw [Int.toNat_natCast, zpow_natCast, le_div_iff₀ hb', mul_comm]
    norm_cast
  · rename_i ht
    obtain ⟨n, hn⟩ := Int.exists_eq_neg_ofNat (le_of_lt (not_le.mp ht))
    subst hn
    rw [neg_neg, Int.toNat_natCast, zpow_neg, zpow_natCast, inv_le_iff_one_le_mul₀ (by positivity),
      div_mul_eq_mul_div, le_div_iff₀ hb', one_mul]
    norm_cast

/-- The bit lengths of `a` and `b` place `a / b` between `2^(La-Lb-1)` and `2^(La-Lb+1)`. -/
theorem log_bounds {a b La Lb : Nat} (ha1 : 2 ^ (La - 1) ≤ a) (ha2 : a < 2 ^ La) (hLa : 0 < La)
    (hb1 : 2 ^ (Lb - 1) ≤ b) (hb2 : b < 2 ^ Lb) (hLb : 0 < Lb) :
    (2 : ℚ) ^ ((La : ℤ) - Lb - 1) ≤ (a : ℚ) / b ∧ (a : ℚ) / b < (2 : ℚ) ^ ((La : ℤ) - Lb + 1) := by
  have hb0 : (0 : ℚ) < b := by
    have : 0 < b := lt_of_lt_of_le (Nat.pos_pow_of_pos _ (by decide)) hb1
    exact_mod_cast this
  have ea : ((La : ℤ) - Lb - 1) = ((La - 1 : ℕ) : ℤ) - (Lb : ℤ) := by omega
  have eb : ((La : ℤ) - Lb + 1) = (La : ℤ) - ((Lb - 1 : ℕ) : ℤ) := by omega
  rw [ea, eb, zpow_sub₀ (by norm_num), zpow_sub₀ (by norm_num), zpow_natCast, zpow_natCast,
    zpow_natCast, zpow_natCast]
  have qa1 : (2 : ℚ) ^ (La - 1) ≤ a := by exact_mod_cast ha1
  have qa2 : (a : ℚ) < 2 ^ La := by exact_mod_cast ha2
  have qb1 : (2 : ℚ) ^ (Lb - 1) ≤ b := by exact_mod_cast hb1
  have qb2 : (b : ℚ) < 2 ^ Lb := by exact_mod_cast hb2
  constructor
  · calc (2 : ℚ) ^ (La - 1) / 2 ^ Lb ≤ a / 2 ^ Lb := by gcongr
      _ ≤ a / b := by gcongr
  · calc (a : ℚ) / b < 2 ^ La / b := by gcongr
      _ ≤ 2 ^ La / 2 ^ (Lb - 1) := by gcongr

theorem le_log_two_iff {q : ℚ} (hq : 0 < q) (t : ℤ) : t ≤ Int.log 2 q ↔ (2 : ℚ) ^ t ≤ q := by
  rw [← Int.zpow_le_iff_le_log (by decide) hq]; norm_num

theorem log_two_lt_iff {q : ℚ} (hq : 0 < q) (t : ℤ) : Int.log 2 q < t ↔ q < (2 : ℚ) ^ t := by
  rw [← Int.lt_zpow_iff_log_lt (by decide) hq]; norm_num

/-- `floorLog2` is `⌊log₂ (a / b)⌋`. -/
theorem floorLog2_eq_log {a b : Nat} (ha : 0 < a) (hb : 0 < b) :
    floorLog2 a b = Int.log 2 ((a : ℚ) / b) := by
  obtain ⟨ha1, ha2, hLa⟩ := bitLength_spec ha
  obtain ⟨hb1, hb2, hLb⟩ := bitLength_spec hb
  obtain ⟨lo, hi⟩ := log_bounds ha1 ha2 hLa hb1 hb2 hLb
  have hq : (0 : ℚ) < (a : ℚ) / b := by positivity
  have hlo := (le_log_two_iff hq _).2 lo
  have hhi := (log_two_lt_iff hq _).2 hi
  show (if geTwoPow a b ((bitLength a : ℤ) - bitLength b) then _ else _) = _
  split
  · rename_i h
    have := (le_log_two_iff hq _).2 ((geTwoPow_iff hb _).1 h)
    omega
  · rename_i h
    have : Int.log 2 ((a : ℚ) / b) < (bitLength a : ℤ) - bitLength b :=
      (log_two_lt_iff hq _).2 (lt_of_not_le fun h' => h ((geTwoPow_iff hb _).2 h'))
    omega

theorem floorLog2_mul {a b s : Nat} (ha : 0 < a) (hb : 0 < b) (hs : 0 < s) :
    floorLog2 (a * s) (b * s) = floorLog2 a b := by
  rw [floorLog2_eq_log (Nat.mul_pos ha hs) (Nat.mul_pos hb hs), floorLog2_eq_log ha hb]
  congr 1
  have : (s : ℚ) ≠ 0 := by exact_mod_cast hs.ne'
  push_cast
  field_simp
  ring

theorem roundHalfEven_mul (a b s : Nat) (hs : 0 < s) :
    roundHalfEven (a * s) (b * s) = roundHalfEven a b := by
  have h1 : a * s / (b * s) = a / b := Nat.mul_div_mul_right a b hs
  have h2 : a * s % (b * s) = a % b * s := Nat.mul_mod_mul_right s a b
  simp only [roundHalfEven, h1, h2, ← Nat.mul_assoc, Nat.mul_lt_mul_right hs]

/-- A multiple of the denominator rounds to itself. -/
theorem roundHalfEven_exact (m q : Nat) (hq : 0 < q) : roundHalfEven (m * q) q = m := by
  simp [roundHalfEven, Nat.mul_mod_left, hq, Nat.mul_div_cancel _ hq]

theorem divTwoPow_mul (a b s : Nat) (e : Int) :
    divTwoPow (a * s) (b * s) e = ((divTwoPow a b e).1 * s, (divTwoPow a b e).2 * s) := by
  unfold divTwoPow; split <;> simp [Nat.mul_right_comm]

/-- Rounding reads only the ratio `a / b`. -/
theorem roundToFloat_mul {a b s : Nat} (hb : 0 < b) (hs : 0 < s) :
    roundToFloat (a * s) (b * s) = roundToFloat a b := by
  rcases Nat.eq_zero_or_pos a with rfl | ha
  · simp [roundToFloat]
  · simp only [roundToFloat, Nat.mul_eq_zero, hs.ne', or_false, floorLog2_mul ha hb hs,
      divTwoPow_mul, roundHalfEven_mul _ _ _ hs]

theorem log_two_mul_zpow {m L : Nat} (h1 : 2 ^ (L - 1) ≤ m) (h2 : m < 2 ^ L) (hL : 0 < L)
    (e : ℤ) : Int.log 2 ((m : ℚ) * 2 ^ e) = (L : ℤ) - 1 + e := by
  have hm : (0 : ℚ) < m := by
    have : 0 < m := lt_of_lt_of_le (Nat.pos_pow_of_pos _ (by decide)) h1
    exact_mod_cast this
  have h2e : (0 : ℚ) < 2 ^ e := zpow_pos (by norm_num) e
  have hq : (0 : ℚ) < m * 2 ^ e := mul_pos hm h2e
  have q1 : (2 : ℚ) ^ (L - 1) ≤ m := by exact_mod_cast h1
  have q2 : (m : ℚ) < 2 ^ L := by exact_mod_cast h2
  have lo : (2 : ℚ) ^ ((L : ℤ) - 1 + e) ≤ m * 2 ^ e := by
    rw [zpow_add₀ (by norm_num), show (L : ℤ) - 1 = ((L - 1 : ℕ) : ℤ) by omega, zpow_natCast]
    gcongr
  have hi : (m : ℚ) * 2 ^ e < 2 ^ ((L : ℤ) - 1 + e + 1) := by
    rw [show (L : ℤ) - 1 + e + 1 = (L : ℤ) + e by ring, zpow_add₀ (by norm_num), zpow_natCast]
    gcongr
  have := (le_log_two_iff hq _).2 lo
  have := (log_two_lt_iff hq _).2 hi
  omega

namespace Float64

/-- The exact magnitude, as a rational. -/
theorem magnitude_div (f : Float64) :
    ((f.magnitude.1 : ℚ) / f.magnitude.2) = f.mant * 2 ^ f.exp2 := by
  unfold magnitude
  split
  · rename_i h
    obtain ⟨n, hn⟩ := Int.eq_ofNat_of_zero_le h
    rw [hn, Int.toNat_natCast, zpow_natCast]; push_cast; ring
  · rename_i h
    obtain ⟨n, hn⟩ := Int.exists_eq_neg_ofNat (le_of_lt (not_le.mp h))
    rw [hn, neg_neg, Int.toNat_natCast, zpow_neg, zpow_natCast]; push_cast; ring

theorem magnitude_den_pos (f : Float64) : 0 < f.magnitude.2 := by
  unfold magnitude; split
  · exact Nat.one_pos
  · exact Nat.pos_pow_of_pos _ (by decide)

/-- Dividing the magnitude by `2^exp2` leaves the significand over the denominator. -/
theorem divTwoPow_magnitude (f : Float64) :
    (divTwoPow f.magnitude.1 f.magnitude.2 f.exp2).1 =
      f.mant * (divTwoPow f.magnitude.1 f.magnitude.2 f.exp2).2 := by
  unfold magnitude divTwoPow
  split <;> simp [Nat.mul_comm]

theorem mant_lt (f : Float64) : f.mant < 2 ^ 53 := by
  have := f.frac.isLt; unfold mant; split <;> omega

theorem exp2_bounds (f : Float64) : -1074 ≤ f.exp2 ∧ f.exp2 ≤ 971 := by
  have := f.bexp.isLt; unfold exp2; split <;> omega

end Float64

/-- A float's exact value rounds to that float: the search's last resort is sound. -/
theorem roundToFloat_magnitude (f : Float64) :
    roundToFloat f.magnitude.1 f.magnitude.2 = some (f.bexp, f.frac) := by
  have hb := f.magnitude_den_pos
  have hfrac := f.frac.isLt
  have hbexp := f.bexp.isLt
  rcases Nat.eq_zero_or_pos f.mant with hm | hm
  · have hz : f.bexp.val = 0 ∧ f.frac.val = 0 := by
      unfold Float64.mant at hm; split at hm <;> omega
    have ha : f.magnitude.1 = 0 := by unfold Float64.magnitude; split <;> simp [hm]
    rw [roundToFloat, if_pos ha]
    simp only [Option.some.injEq, Prod.mk.injEq]
    exact ⟨Fin.ext hz.1.symm, Fin.ext hz.2.symm⟩
  · have ha : 0 < f.magnitude.1 := by
      have : (0 : ℚ) < f.magnitude.1 / f.magnitude.2 := by
        rw [f.magnitude_div]; have : (0 : ℚ) < f.mant := by exact_mod_cast hm
        exact mul_pos this (zpow_pos (by norm_num) _)
      exact_mod_cast (div_pos_iff_of_pos_right (by exact_mod_cast hb : (0 : ℚ) < _)).1 this
    obtain ⟨hL1, hL2, hL⟩ := bitLength_spec hm
    have hlog : floorLog2 f.magnitude.1 f.magnitude.2 = (bitLength f.mant : ℤ) - 1 + f.exp2 := by
      rw [floorLog2_eq_log ha hb, f.magnitude_div, log_two_mul_zpow hL1 hL2 hL]
    have he := f.exp2_bounds
    have hmlt := f.mant_lt
    -- the scaling exponent is the float's own
    have he0 : max ((bitLength f.mant : ℤ) - 1 + f.exp2 - 52) (-1074) = f.exp2 := by
      have hLle : bitLength f.mant ≤ 53 := by
        by_contra h
        have : 2 ^ 53 ≤ 2 ^ (bitLength f.mant - 1) := Nat.pow_le_pow_right (by decide) (by omega)
        omega
      by_cases hn : f.bexp.val = 0
      · have : f.exp2 = -1074 := by simp [Float64.exp2, hn]
        omega
      · have hL53 : bitLength f.mant = 53 := by
          have : 2 ^ 52 ≤ f.mant := by simp [Float64.mant, hn]
          by_contra h
          have : 2 ^ bitLength f.mant ≤ 2 ^ 52 := Nat.pow_le_pow_right (by decide) (by omega)
          omega
        omega
    have hround : roundHalfEven (divTwoPow f.magnitude.1 f.magnitude.2 f.exp2).1
        (divTwoPow f.magnitude.1 f.magnitude.2 f.exp2).2 = f.mant := by
      rw [Float64.divTwoPow_magnitude]
      exact roundHalfEven_exact _ _ (by unfold divTwoPow; split <;> positivity)
    simp only [roundToFloat, ha.ne', if_false, hlog, he0, hround, show f.mant ≠ 2 ^ 53 by omega]
    rw [dif_pos (by omega)]
    simp only [Option.some.injEq, Prod.mk.injEq]
    constructor
    · split
      · rename_i h
        have : f.bexp.val = 0 := by unfold Float64.mant at h; split at h <;> omega
        exact Fin.ext this.symm
      · rename_i h
        have : f.bexp.val ≠ 0 := by intro h0; unfold Float64.mant at h; simp [h0] at h
        apply Fin.ext
        simp only [Float64.exp2, this, if_false]
        omega
    · apply Fin.ext
      simp only
      unfold Float64.mant; split <;> omega

/-! ## Shortest formatting -/

/-- `c * 10^k` reads back as `f`'s magnitude. -/
def roundsTo (f : Float64) (c : Nat) (k : Int) : Prop :=
  roundToFloat (magnitudePair c k).1 (magnitudePair c k).2 = some (f.bexp, f.frac)

instance (f : Float64) (c : Nat) (k : Int) : Decidable (roundsTo f c k) :=
  inferInstanceAs (Decidable (_ = _))

/-- `a / b / 10^k` as a fraction. -/
def divTenPow (a b : Nat) (k : Int) : Nat × Nat :=
  if 0 ≤ k then (a, b * 10 ^ k.toNat) else (a * 10 ^ (-k).toNat, b)

/-- The digits kept at decimal position `k`: of the two multiples of `10^k` around
the magnitude, those that read back as `f`; the nearer if both do, the even one on a tie. -/
def nearestAt (f : Float64) (k : Int) : Option Nat :=
  let p := (divTenPow f.magnitude.1 f.magnitude.2 k).1
  let q := (divTenPow f.magnitude.1 f.magnitude.2 k).2
  if roundsTo f (p / q) k then
    if roundsTo f (p / q + 1) k ∧ (q < 2 * (p % q) ∨ 2 * (p % q) = q ∧ p / q % 2 = 1) then
      some (p / q + 1)
    else some (p / q)
  else if roundsTo f (p / q + 1) k then some (p / q + 1) else none

namespace Float64

/-- The highest decimal position tried: `10^kHigh` exceeds the magnitude. -/
def kHigh (f : Float64) : Int :=
  ((natDigits f.magnitude.1).length : Int) - (natDigits f.magnitude.2).length + 1

/-- The position of the exact expansion, `min exp2 0`. -/
def kLow (f : Float64) : Int := min f.exp2 0

/-- The digits of the exact expansion: `mant * 2^exp2 = exactDigits * 10^kLow`. -/
def exactDigits (f : Float64) : Nat :=
  if 0 ≤ f.exp2 then f.mant * 2 ^ f.exp2.toNat else f.mant * 5 ^ (-f.exp2).toNat

end Float64

/-- Trailing zero digits move into the exponent; `strconv`'s shortest digits have none. -/
def stripZeros : Nat → Nat → Int → Nat × Int
  | 0, c, k => (c, k)
  | fuel + 1, c, k => if 0 < c ∧ c % 10 = 0 then stripZeros fuel (c / 10) (k + 1) else (c, k)

/-- The shortest decimal `c * 10^k` that reads back as `f`: the first position, from
`kHigh` down to `kLow`, at which `nearestAt` finds digits.  Zero has no digits and
its decimal point at `0`, as in `ryuFtoaShortest`. -/
def shortestDecimal (f : Float64) : Nat × Int :=
  if f.mant = 0 then (0, 0)
  else
    let ks := (List.range ((f.kHigh - f.kLow).toNat + 1)).map fun i => f.kHigh - i
    let r := (ks.findSome? fun k => (nearestAt f k).map fun c => (c, k)).getD
      (f.exactDigits, f.kLow)
    stripZeros r.1 r.1 r.2

/-- The exponent digits of `%e`: at least two (`strconv` writes `e+05`), except that
the encoder rewrites a negative exponent `e-07` to `e-7`. -/
def expDigits (x : Int) : List Digit :=
  if x.natAbs < 10 ∧ 0 ≤ x then 0 :: natDigits x.natAbs else natDigits x.natAbs

theorem expDigits_ne_nil (x : Int) : expDigits x ≠ [] := by
  obtain ⟨d, ds, h, -⟩ := natDigits_cons x.natAbs
  unfold expDigits; split <;> simp [h]

/-- The literal `strconv.AppendFloat(b, v, fmt, -1, 64)` writes for `v = ±c * 10^k`:
`%e` as `d.ddde±x`, `%f` as the integer part followed, when `k < 0`, by the `-k`
digits after the point. -/
def renderDecimal (neg : Bool) (c : Nat) (k : Int) (sci : Bool) : NumLit :=
  if sci then
    match natDigits c with
    | d :: ds =>
      ⟨neg, .single d, ds, some ⟨false, if k + ds.length < 0 then .minus else .plus,
        expDigits (k + ds.length), expDigits_ne_nil _⟩⟩
    | [] => ⟨neg, .single 0, [], none⟩
  else if 0 ≤ k then ⟨neg, .ofNat (c * 10 ^ k.toNat), [], none⟩
  else
    ⟨neg, .ofNat (c / 10 ^ (-k).toNat),
      (natDigits (c % 10 ^ (-k).toNat)).leftpad (-k).toNat 0, none⟩

namespace Float64

/-- The bit pattern of `|f|`; non-negative `float64`s compare as their bit patterns. -/
def absBits (f : Float64) : Nat := f.bexp.val * 2 ^ 52 + f.frac.val

/-- The encoder's choice of `%e`: `abs != 0 && (abs < 1e-6 || abs >= 1e21)`, the
comparisons made against the `float64` constants, whose bits are
`0x3EB0C6F7A0B5ED8D` and `0x444B1AE4D6E2EF50`. -/
def useExp (f : Float64) : Bool :=
  !f.isZero && decide (f.absBits < 0x3EB0C6F7A0B5ED8D ∨ 0x444B1AE4D6E2EF50 ≤ f.absBits)

end Float64

/-- `floatEncoder` for a finite `float64`: the shortest digits, as `%f` or `%e`. -/
def formatFloat (f : Float64) : NumLit :=
  renderDecimal f.neg (shortestDecimal f).1 (shortestDecimal f).2 f.useExp

/-! ## Formatting reads back -/

theorem magnitudePair_div (c : Nat) (k : Int) :
    ((magnitudePair c k).1 : ℚ) / (magnitudePair c k).2 = c * 10 ^ k := by
  unfold magnitudePair
  split
  · rename_i h
    obtain ⟨n, hn⟩ := Int.eq_ofNat_of_zero_le h
    rw [hn, Int.toNat_natCast, zpow_natCast]; push_cast; ring
  · rename_i h
    obtain ⟨n, hn⟩ := Int.exists_eq_neg_ofNat (le_of_lt (not_le.mp h))
    rw [hn, neg_neg, Int.toNat_natCast, zpow_neg, zpow_natCast]; push_cast; ring

/-- Rounding only sees the value of the fraction. -/
theorem roundToFloat_congr {a b a' b' : Nat} (hb : 0 < b) (hb' : 0 < b')
    (h : (a : ℚ) / b = a' / b') : roundToFloat a b = roundToFloat a' b' := by
  have hx : a * b' = a' * b := by
    rw [div_eq_div_iff (by positivity) (by positivity)] at h; exact_mod_cast h
  calc roundToFloat a b = roundToFloat (a * b') (b * b') := (roundToFloat_mul hb hb').symm
    _ = roundToFloat (a' * b) (b' * b) := by rw [hx, Nat.mul_comm b b']
    _ = roundToFloat a' b' := roundToFloat_mul hb' hb

theorem roundsTo_congr {f : Float64} {c c' : Nat} {k k' : Int}
    (h : (c : ℚ) * 10 ^ k = c' * 10 ^ k') : roundsTo f c k ↔ roundsTo f c' k' := by
  unfold roundsTo
  rw [roundToFloat_congr (magnitudePair_den_pos c k) (magnitudePair_den_pos c' k')
    (by rw [magnitudePair_div, magnitudePair_div, h])]

theorem roundsTo_of_nearestAt {f : Float64} {k : Int} {c : Nat} (h : nearestAt f k = some c) :
    roundsTo f c k := by
  dsimp only [nearestAt] at h
  split_ifs at h with h1 h2 h3 <;> cases h
  exacts [h2.1, h1, h3]

theorem Float64.magnitude_div_exact (f : Float64) :
    ((f.magnitude.1 : ℚ) / f.magnitude.2) = f.exactDigits * 10 ^ f.kLow := by
  rw [f.magnitude_div]
  unfold Float64.exactDigits Float64.kLow
  split
  · rename_i h
    obtain ⟨n, hn⟩ := Int.eq_ofNat_of_zero_le h
    rw [hn, min_eq_right (by omega), Int.toNat_natCast, zpow_natCast]; push_cast; ring
  · rename_i h
    obtain ⟨n, hn⟩ := Int.exists_eq_neg_ofNat (le_of_lt (not_le.mp h))
    rw [hn, min_eq_left (by omega), neg_neg, Int.toNat_natCast, zpow_neg, zpow_neg, zpow_natCast,
      zpow_natCast]
    push_cast
    rw [show (10 : ℚ) ^ n = 2 ^ n * 5 ^ n by rw [← mul_pow]; norm_num]
    field_simp
    ring

/-- The exact expansion always reads back: the search cannot fail. -/
theorem roundsTo_exactDigits (f : Float64) : roundsTo f f.exactDigits f.kLow := by
  unfold roundsTo
  rw [roundToFloat_congr (magnitudePair_den_pos _ _) f.magnitude_den_pos
    (by rw [magnitudePair_div, f.magnitude_div_exact]), roundToFloat_magnitude]

theorem stripZeros_value (fuel c : Nat) (k : Int) :
    ((stripZeros fuel c k).1 : ℚ) * 10 ^ (stripZeros fuel c k).2 = c * 10 ^ k := by
  induction fuel generalizing c k with
  | zero => rfl
  | succ fuel ih =>
    unfold stripZeros
    split
    · rename_i h
      rw [ih, zpow_add₀ (by norm_num), zpow_one]
      have : (c : ℚ) = (c / 10 : Nat) * 10 := by exact_mod_cast (Nat.div_mul_cancel
        (Nat.dvd_of_mod_eq_zero h.2)).symm
      rw [this]; ring
    · rfl

theorem shortestDecimal_roundsTo (f : Float64) :
    roundsTo f (shortestDecimal f).1 (shortestDecimal f).2 := by
  unfold shortestDecimal
  split
  · rename_i h
    rw [roundsTo_congr (show ((0 : Nat) : ℚ) * 10 ^ (0 : Int) = f.exactDigits * 10 ^ f.kLow by
      simp [Float64.exactDigits, h])]
    exact roundsTo_exactDigits f
  simp only
  rw [roundsTo_congr (stripZeros_value _ _ _)]
  generalize hr : List.findSome? _ _ = r
  cases r with
  | none => exact roundsTo_exactDigits f
  | some ck =>
    obtain ⟨k, -, hk⟩ := List.exists_of_findSome?_eq_some hr
    obtain ⟨c, hc, rfl⟩ := Option.map_eq_some'.1 hk
    exact roundsTo_of_nearestAt hc

theorem ExpPart.value_expDigits (x : Int) :
    (⟨false, if x < 0 then .minus else .plus, expDigits x, expDigits_ne_nil x⟩ : ExpPart).value
      = x := by
  have hd : digitsVal (expDigits x) = x.natAbs := by
    unfold expDigits
    split
    · rw [← List.singleton_append, digitsVal_append]; simp
    · simp
  unfold ExpPart.value
  split_ifs <;> simp only [hd] <;> omega

/-- The literal's exact value is `c * 10^k`, in both styles. -/
theorem renderDecimal_value (neg : Bool) (c : Nat) (k : Int) (sci : Bool) :
    ((renderDecimal neg c k sci).mantissa : ℚ) * 10 ^ (renderDecimal neg c k sci).exponent =
      c * 10 ^ k := by
  unfold renderDecimal
  split
  · obtain ⟨d, ds, h, -⟩ := natDigits_cons c
    simp only [h, NumLit.mantissa, NumLit.exponent, IntDigits.single, List.singleton_append,
      Option.map_some', Option.getD_some, ExpPart.value_expDigits]
    rw [← h, digitsVal_natDigits]
    ring_nf
  · split
    · rename_i hk
      obtain ⟨n, rfl⟩ := Int.eq_ofNat_of_zero_le hk
      simp [NumLit.mantissa, NumLit.exponent, IntDigits.ofNat]
    · rename_i hk
      obtain ⟨n, hn⟩ := Int.exists_eq_neg_ofNat (le_of_lt (not_le.mp hk))
      subst hn
      have hn : 0 < n := by omega
      have hlen := length_natDigits_le hn (Nat.mod_lt c (Nat.pos_pow_of_pos n (by decide)))
      have hm : digitsVal (natDigits (c / 10 ^ n) ++
          (natDigits (c % 10 ^ n)).leftpad n 0) = c := by
        rw [digitsVal_append, List.leftpad_length, List.leftpad, digitsVal_zeros_append,
          digitsVal_natDigits, digitsVal_natDigits, max_eq_left hlen, Nat.mul_comm]
        exact Nat.div_add_mod c _
      simp only [NumLit.mantissa, NumLit.exponent, IntDigits.ofNat, neg_neg, Int.toNat_natCast,
        hm, List.leftpad_length, max_eq_left hlen, Option.map_none', Option.getD_none]
      simp

theorem renderDecimal_neg (neg : Bool) (c : Nat) (k : Int) (sci : Bool) :
    (renderDecimal neg c k sci).neg = neg := by
  unfold renderDecimal; split
  · split <;> rfl
  · split <;> rfl

theorem NumLit.magnitude_div (n : NumLit) :
    ((n.magnitude.1 : ℚ) / n.magnitude.2) = n.mantissa * 10 ^ n.exponent :=
  magnitudePair_div _ _

/-- The encoder's text for a `float64` parses back to that `float64`. -/
theorem parseFloat_formatFloat (f : Float64) : parseFloat (formatFloat f) = some f := by
  have hr : roundToFloat (formatFloat f).magnitude.1 (formatFloat f).magnitude.2 =
      some (f.bexp, f.frac) := by
    have h := shortestDecimal_roundsTo f
    unfold roundsTo at h
    rw [← h]
    exact roundToFloat_congr (magnitudePair_den_pos _ _) (magnitudePair_den_pos _ _)
      (by rw [NumLit.magnitude_div, formatFloat, renderDecimal_value, magnitudePair_div])
  rw [parseFloat, hr, Option.map_some', formatFloat, renderDecimal_neg]

/-- `0.1` is written as `0.1`. -/
example : (formatFloat ⟨false, 1019, 0x999999999999A⟩).emit = ascii "0.1" := by decide

end UbirchClient.Json
