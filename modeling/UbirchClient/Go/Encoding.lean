import UbirchClient.Go.Basic
set_option autoImplicit false

/-!
# `encoding/hex` and `encoding/base64`

WHAT THIS FILE IS FOR.  The hash route accepts a SHA-256 hash spelled in hex or in
standard base64 (`getHashFromHashRequest`), and the configuration's key-store secret
is standard base64 (`Config.Load`).  This file gives Go's two decoders, the
encoders a client uses to produce those spellings, and the round trips
`hexDecode (hexEncode u x) = ok x` and `base64Decode (base64Encode x) = ok x` for
every byte string `x`.

WHAT IS MODELLED EXACTLY.  `hex.DecodeString` reads pairs of digits of either case
from the left, stops at the first non-digit, and reports an odd length only after
the last digit has been checked.  `base64.StdEncoding.DecodeString` skips `\r` and
`\n` anywhere, requires the input to be whole quanta of four characters with `=`
padding only at the end of the last one, and does not check that the unused bits
of a padded quantum are zero (the encoding is not `Strict`).

WHAT IS NOT.  The error values keep their kind and the offending byte, not the
input offset Go prints with them.
-/

namespace UbirchClient.Go

/-! ## Hex -/

/-- `hex.fromHexChar`: the value of one hex digit of either case. -/
def fromHexChar (c : UInt8) : Option Nat :=
  if 0x30 ≤ c ∧ c ≤ 0x39 then some (c.toNat - 0x30)
  else if 0x61 ≤ c ∧ c ≤ 0x66 then some (c.toNat - 0x61 + 10)
  else if 0x41 ≤ c ∧ c ≤ 0x46 then some (c.toNat - 0x41 + 10)
  else none

/-- The errors of `hex.DecodeString`. -/
inductive HexError where
  /-- `InvalidByteError`: a byte that is not a hex digit -/
  | invalidByte (b : UInt8)
  /-- `ErrLength`: an odd number of digits -/
  | length
  deriving DecidableEq, Repr

/-- `hex.DecodeString`: each pair of digits `a b` becomes the byte `(a << 4) | b`,
which for two nibbles is `16 * a + b`. -/
def hexDecode : GoString → Except HexError GoString
  | [] => .ok []
  | [c] => if (fromHexChar c).isSome then .error .length else .error (.invalidByte c)
  | a :: b :: rest =>
    match fromHexChar a, fromHexChar b with
    | none, _ => .error (.invalidByte a)
    | some _, none => .error (.invalidByte b)
    | some x, some y => (hexDecode rest).map (UInt8.ofNat (16 * x + y) :: ·)

/-- The hex digit of a nibble, lower case (`hex.EncodeToString`'s table) or upper case. -/
def hexDigit (upper : Bool) (n : Nat) : UInt8 :=
  if n < 10 then UInt8.ofNat (0x30 + n)
  else UInt8.ofNat ((if upper then 0x41 else 0x61) + (n - 10))

/-- Two hex digits per byte, high nibble first.  `hexEncode false` is
`hex.EncodeToString`; `hexEncode true` is the upper-case spelling a client may send. -/
def hexEncode (upper : Bool) : GoString → GoString
  | [] => []
  | b :: bs => hexDigit upper (b.toNat / 16) :: hexDigit upper (b.toNat % 16) :: hexEncode upper bs

theorem fromHexChar_hexDigit (upper : Bool) : ∀ n, n < 16 → fromHexChar (hexDigit upper n) = some n := by
  cases upper <;> decide

theorem length_hexEncode (upper : Bool) (x : GoString) : (hexEncode upper x).length = 2 * x.length := by
  induction x with
  | nil => rfl
  | cons b bs ih => simp only [hexEncode, List.length_cons, ih]; omega

/-- A byte is rebuilt from its two nibbles. -/
theorem ofNat_nibbles (b : UInt8) : UInt8.ofNat (16 * (b.toNat / 16) + b.toNat % 16) = b := by
  rw [Nat.div_add_mod]; exact ofNat_toNat _

/-- Hex decoding inverts hex encoding, in either case. -/
theorem hexDecode_hexEncode (upper : Bool) (x : GoString) :
    hexDecode (hexEncode upper x) = .ok x := by
  induction x with
  | nil => rfl
  | cons b bs ih =>
    have hb := toNat_lt_256 b
    simp only [hexEncode, hexDecode, fromHexChar_hexDigit upper _ (by omega : b.toNat / 16 < 16),
      fromHexChar_hexDigit upper _ (Nat.mod_lt _ (by omega)), ih, ofNat_nibbles]
    rfl

/-! ## Base64 -/

/-- `encodeStd`: the character of a 6-bit value, `A-Z a-z 0-9 + /`. -/
def base64Char (n : Nat) : UInt8 :=
  if n < 26 then UInt8.ofNat (0x41 + n)
  else if n < 52 then UInt8.ofNat (0x61 + (n - 26))
  else if n < 62 then UInt8.ofNat (0x30 + (n - 52))
  else if n = 62 then 0x2B
  else 0x2F

/-- `StdEncoding.decodeMap`: the 6-bit value of an alphabet character. -/
def base64Value (c : UInt8) : Option Nat :=
  if 0x41 ≤ c ∧ c ≤ 0x5A then some (c.toNat - 0x41)
  else if 0x61 ≤ c ∧ c ≤ 0x7A then some (c.toNat - 0x61 + 26)
  else if 0x30 ≤ c ∧ c ≤ 0x39 then some (c.toNat - 0x30 + 52)
  else if c = 0x2B then some 62
  else if c = 0x2F then some 63
  else none

/-- The padding character `=`. -/
def padChar : UInt8 := 0x3D

/-- The errors of `StdEncoding.DecodeString`. -/
inductive Base64Error where
  /-- `CorruptInputError`: a character outside the alphabet, misplaced padding,
  an incomplete quantum, or trailing garbage after the padding -/
  | corruptInput
  deriving DecidableEq, Repr

/-- The bytes of the 6-bit values `a b c d` (`decodeQuantum`'s
`val := a<<18 | b<<12 | c<<6 | d`, split into three bytes). -/
def quantumBytes (a b c d : Nat) : UInt8 × UInt8 × UInt8 :=
  (UInt8.ofNat (4 * a + b / 16), UInt8.ofNat (16 * (b % 16) + c / 4), UInt8.ofNat (64 * (c % 4) + d))

/-- `decodeQuantum`, repeated: the input, newlines already removed, as quanta of four
characters; `xx==` and `xxx=` only as the last quantum. -/
def decodeQuanta : GoString → Except Base64Error GoString
  | a :: b :: c :: d :: rest =>
    match base64Value a, base64Value b with
    | some va, some vb =>
      if c = padChar then
        if d = padChar ∧ rest = [] then .ok [(quantumBytes va vb 0 0).1] else .error .corruptInput
      else
        match base64Value c with
        | none => .error .corruptInput
        | some vc =>
          if d = padChar then
            if rest = [] then
              .ok [(quantumBytes va vb vc 0).1, (quantumBytes va vb vc 0).2.1]
            else .error .corruptInput
          else
            match base64Value d with
            | none => .error .corruptInput
            | some vd =>
              let q := quantumBytes va vb vc vd
              (decodeQuanta rest).map (q.1 :: q.2.1 :: q.2.2 :: ·)
    | _, _ => .error .corruptInput
  | [] => .ok []
  | _ => .error .corruptInput

/-- `base64.StdEncoding.DecodeString`: `\r` and `\n` are skipped wherever they stand. -/
def base64Decode (s : GoString) : Except Base64Error GoString :=
  decodeQuanta (s.filter fun c => !(c = 0x0A || c = 0x0D))

/-- `base64.StdEncoding.EncodeToString`: three bytes to four characters, the last
quantum padded with `=`. -/
def base64Encode : GoString → GoString
  | p :: q :: r :: rest =>
    base64Char (p.toNat / 4) :: base64Char (16 * (p.toNat % 4) + q.toNat / 16) ::
      base64Char (4 * (q.toNat % 16) + r.toNat / 64) :: base64Char (r.toNat % 64) ::
        base64Encode rest
  | [p, q] =>
    [base64Char (p.toNat / 4), base64Char (16 * (p.toNat % 4) + q.toNat / 16),
      base64Char (4 * (q.toNat % 16)), padChar]
  | [p] => [base64Char (p.toNat / 4), base64Char (16 * (p.toNat % 4)), padChar, padChar]
  | [] => []

theorem base64Value_base64Char : ∀ n, n < 64 → base64Value (base64Char n) = some n := by
  decide

theorem base64Char_ne_pad : ∀ n, n < 64 → base64Char n ≠ padChar := by
  decide

theorem base64Char_not_newline : ∀ n, n < 64 → (base64Char n = 0x0A || base64Char n = 0x0D) = false := by
  decide

/-- Encoder output holds no newline, so decoding filters nothing out of it. -/
theorem filter_base64Encode (x : GoString) :
    (base64Encode x).filter (fun c => !(c = 0x0A || c = 0x0D)) = base64Encode x := by
  induction x using base64Encode.induct with
  | case1 p q r rest ih =>
    have := toNat_lt_256 p; have := toNat_lt_256 q; have := toNat_lt_256 r
    simp only [base64Encode, List.filter_cons, base64Char_not_newline _ (by omega : p.toNat / 4 < 64),
      base64Char_not_newline _ (by omega : 16 * (p.toNat % 4) + q.toNat / 16 < 64),
      base64Char_not_newline _ (by omega : 4 * (q.toNat % 16) + r.toNat / 64 < 64),
      base64Char_not_newline _ (by omega : r.toNat % 64 < 64), ih]
    rfl
  | case2 p q =>
    have := toNat_lt_256 p; have := toNat_lt_256 q
    simp only [base64Encode, List.filter_cons, base64Char_not_newline _ (by omega : p.toNat / 4 < 64),
      base64Char_not_newline _ (by omega : 16 * (p.toNat % 4) + q.toNat / 16 < 64),
      base64Char_not_newline _ (by omega : 4 * (q.toNat % 16) < 64)]
    rfl
  | case3 p =>
    have := toNat_lt_256 p
    simp only [base64Encode, List.filter_cons, base64Char_not_newline _ (by omega : p.toNat / 4 < 64),
      base64Char_not_newline _ (by omega : 16 * (p.toNat % 4) < 64)]
    rfl
  | case4 => rfl

/-- The three bytes of a quantum are rebuilt from its four 6-bit values. -/
theorem quantumBytes_encode (p q r : UInt8) :
    quantumBytes (p.toNat / 4) (16 * (p.toNat % 4) + q.toNat / 16)
      (4 * (q.toNat % 16) + r.toNat / 64) (r.toNat % 64) = (p, q, r) := by
  have hp := toNat_lt_256 p; have hq := toNat_lt_256 q; have hr := toNat_lt_256 r
  simp only [quantumBytes, Prod.mk.injEq]
  refine ⟨?_, ?_, ?_⟩
  · rw [show 4 * (p.toNat / 4) + (16 * (p.toNat % 4) + q.toNat / 16) / 16 = p.toNat by omega]
    exact ofNat_toNat _
  · rw [show 16 * ((16 * (p.toNat % 4) + q.toNat / 16) % 16) + (4 * (q.toNat % 16) + r.toNat / 64) / 4
      = q.toNat by omega]
    exact ofNat_toNat _
  · rw [show 64 * ((4 * (q.toNat % 16) + r.toNat / 64) % 4) + r.toNat % 64 = r.toNat by omega]
    exact ofNat_toNat _

/-- Base64 decoding inverts base64 encoding. -/
theorem base64Decode_base64Encode (x : GoString) : base64Decode (base64Encode x) = .ok x := by
  rw [base64Decode, filter_base64Encode]
  induction x using base64Encode.induct with
  | case1 p q r rest ih =>
    have := toNat_lt_256 p; have := toNat_lt_256 q; have := toNat_lt_256 r
    have h1 : p.toNat / 4 < 64 := by omega
    have h2 : 16 * (p.toNat % 4) + q.toNat / 16 < 64 := by omega
    have h3 : 4 * (q.toNat % 16) + r.toNat / 64 < 64 := by omega
    have h4 : r.toNat % 64 < 64 := by omega
    simp only [base64Encode, decodeQuanta, base64Value_base64Char _ h1, base64Value_base64Char _ h2,
      base64Value_base64Char _ h3, base64Value_base64Char _ h4, base64Char_ne_pad _ h3,
      base64Char_ne_pad _ h4, if_false, quantumBytes_encode, ih]
    rfl
  | case2 p q =>
    have := toNat_lt_256 p; have := toNat_lt_256 q
    have h1 : p.toNat / 4 < 64 := by omega
    have h2 : 16 * (p.toNat % 4) + q.toNat / 16 < 64 := by omega
    have h3 : 4 * (q.toNat % 16) < 64 := by omega
    have e := quantumBytes_encode p q 0
    simp only [UInt8.toNat_zero, Nat.zero_div, Nat.add_zero, Nat.zero_mod] at e
    simp only [base64Encode, decodeQuanta, base64Value_base64Char _ h1, base64Value_base64Char _ h2,
      base64Value_base64Char _ h3, base64Char_ne_pad _ h3, if_false, e]
    rfl
  | case3 p =>
    have := toNat_lt_256 p
    have h1 : p.toNat / 4 < 64 := by omega
    have h2 : 16 * (p.toNat % 4) < 64 := by omega
    have e := quantumBytes_encode p 0 0
    simp only [UInt8.toNat_zero, Nat.zero_div, Nat.add_zero, Nat.zero_mod, Nat.mul_zero] at e
    simp only [base64Encode, decodeQuanta, base64Value_base64Char _ h1, base64Value_base64Char _ h2, e]
    rfl
  | case4 => rfl

end UbirchClient.Go
